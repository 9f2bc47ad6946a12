import ExchangeDesk.Decimal.Printer

/-!
# Double precision magnitudes

A magnitude of double precision is `mantissa * 2 ^ exponent` with a mantissa
of at most 53 bits. Ratios are rounded to the nearest one, a half going to the
even mantissa, and a magnitude is written with the fewest decimal digits that
round back to it, always in positional notation. Everything is computed with
whole numbers.
-/

namespace ExchangeDesk

structure Double where
  mantissa : Nat
  exponent : Int
  deriving DecidableEq, Repr

namespace Double

def zero : Double := ⟨0, 0⟩

/-- The least mantissa of 53 bits, `2 ^ 52`. -/
abbrev leastFull : Nat := 4503599627370496

def numerator (x : Double) : Nat := x.mantissa <<< x.exponent.toNat

def denominator (x : Double) : Nat := 1 <<< (-x.exponent).toNat

/-- The exponent of the last mantissa bit of magnitudes around `n / d`: 53 bits
below the leading one, and never below the smallest step, `2 ^ -1074`. -/
def lastBit (n d : Nat) : Int :=
  let estimate : Int := (n.log2 : Int) - d.log2
  let leading :=
    if d <<< estimate.toNat ≤ n <<< (-estimate).toNat then estimate else estimate - 1
  max (leading - 52) (-1074)

def ofRatio (n d : Nat) : Option Double :=
  let exponent := lastBit n d
  let mantissa := halfEven (n <<< (-exponent).toNat) (d <<< exponent.toNat)
  let x : Double :=
    if mantissa = 2 * leastFull then ⟨leastFull, exponent + 1⟩ else ⟨mantissa, exponent⟩
  if x.mantissa = 0 then some zero
  else if 971 < x.exponent then none
  else some x

def ofNat (n : Nat) : Option Double := ofRatio n 1

def mul (x y : Double) : Option Double :=
  ofRatio (x.numerator * y.numerator) (x.denominator * y.denominator)

def div (x y : Double) : Option Double :=
  ofRatio (x.numerator * y.denominator) (x.denominator * y.numerator)

-- ---------------------------------------------------------------------------
-- Shortest digits
-- ---------------------------------------------------------------------------

/-- The numbers that round to a magnitude, as numerators over
`4 * denominator`: the lower end, the upper end, and whether the ends belong to
them. Below a power of two the lower neighbour is only half as far. -/
def readBack (x : Double) : Nat × Nat × Bool :=
  let step := 1 <<< x.exponent.toNat
  let below := if x.mantissa = leastFull ∧ -1074 < x.exponent then step else 2 * step
  (4 * x.numerator - below, 4 * x.numerator + 2 * step, x.mantissa % 2 = 0)

def readsBack (x : Double) (digits : Nat) (places : Int) : Bool :=
  let (low, high, ends) := x.readBack
  let point := digits * tenTo (-places).toNat * 4 * x.denominator
  let scale := tenTo places.toNat
  if ends then low * scale ≤ point && point ≤ high * scale
  else low * scale < point && point < high * scale

/-- The nearer of the two decimals with `places` places that lie beside the
magnitude, if it rounds back, or else the other one; a half goes up. -/
def candidate? (x : Double) (places : Int) : Option Nat :=
  let n := x.numerator * tenTo places.toNat
  let d := x.denominator * tenTo (-places).toNat
  let below := n / d
  let order := if d ≤ 2 * (n % d) then [below + 1, below] else [below, below + 1]
  order.find? (x.readsBack · places)

/-- The place of the leading decimal digit of `n / d`: the largest power of ten
not above it. The fuel bounds the search on both sides. -/
def leadingPlace (n d : Nat) : Int :=
  let up := (List.range 310).filter fun k => d * tenTo k ≤ n
  match up.getLast? with
  | some k => k
  | none => (((List.range 330).find? fun k => d ≤ n * tenTo k).getD 330 : Nat) * (-1)

/-- The fewest digits that round back to a positive magnitude, and the number
of places that they reach behind the point. Seventeen digits always do. -/
def shortest (x : Double) : Nat × Int :=
  let leading := leadingPlace x.numerator x.denominator
  let attempt (count : Nat) : Option (Nat × Int) :=
    let places : Int := (count : Int) - 1 - leading
    (x.candidate? places).map (·, places)
  ((List.range 17).findSome? fun k => attempt (k + 1)).getD (0, 0)

def dropZeros : Nat → Nat → Nat × Nat
  | digits, 0 => (digits, 0)
  | digits, places + 1 =>
    if digits % 10 = 0 then dropZeros (digits / 10) places else (digits, places + 1)

def text (x : Double) : List Char :=
  if x.mantissa = 0 then ['0']
  else
    let (digits, places) := x.shortest
    let (whole, fraction) := dropZeros (digits * tenTo (-places).toNat) places.toNat
    Decimal.magnitudeText whole fraction

end Double
end ExchangeDesk
