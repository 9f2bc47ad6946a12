import ExchangeDesk.Decimal.Basic

/-!
# Arithmetic on decimals

Each operation finds its exact result and then keeps as many digits as fit: a
mantissa below `2 ^ 96` and at most 28 fraction digits, the last digit rounded
with a half going to the even one. `none` is overflow: the whole part alone
does not fit.
-/

namespace ExchangeDesk.Decimal

def excessDigits (n : Nat) : Nat :=
  if n < mantissaBound then 0 else excessDigits (n / 10) + 1
termination_by n
decreasing_by
  have : mantissaBound = 79228162514264337593543950336 := rfl
  omega

/-- The decimal for `±n / 10 ^ scale`, with digits dropped from its end until
it fits. Rounding up to `2 ^ 96` costs one digit more. The sign stays, also if
no digit does. -/
def fit (negative : Bool) (n scale : Nat) : Option Decimal :=
  let least := max (excessDigits n) (scale - maxScale)
  let dropped := if halfEven n (tenTo least) < mantissaBound then least else least + 1
  if dropped ≤ scale then
    ofParts? negative (halfEven n (tenTo dropped)) (scale - dropped)
  else none

def isShort (d : Decimal) : Bool := d.mantissa < UInt32.size

/-- Short numbers whose scales pass this sum multiply to a plain zero. -/
abbrev shortProductScale : Nat := 47

/-- A product of two short numbers that rounds to zero has no sign; that of
longer ones keeps it. -/
def mul (a b : Decimal) : Option Decimal :=
  let product := fit (a.negative != b.negative) (a.mantissa * b.mantissa) (a.scale + b.scale)
  if a.mantissa = 0 ∨ b.mantissa = 0 then some zero
  else if a.isShort && b.isShort then
    if shortProductScale < a.scale + b.scale then some zero
    else product.map dropZeroSign
  else product

def add (a b : Decimal) : Option Decimal :=
  if a.mantissa = 0 then some b
  else if b.mantissa = 0 then some a
  else
    let scale := max a.scale b.scale
    let sum := a.signed * tenTo (scale - a.scale) + b.signed * tenTo (scale - b.scale)
    fit (decide (sum < 0)) sum.natAbs scale

-- ---------------------------------------------------------------------------
-- Division
-- ---------------------------------------------------------------------------

def quotientScale (n d : Nat) : Nat → Option Nat
  | 0 => if n / d < mantissaBound then some 0 else none
  | limit + 1 =>
    if n * tenTo (limit + 1) / d < mantissaBound then some (limit + 1)
    else quotientScale n d limit

def trimZeros (negative : Bool) (mantissa : Nat) : Nat → Option Decimal
  | 0 => ofParts? negative mantissa 0
  | scale + 1 =>
    if mantissa % 10 = 0 then trimZeros negative (mantissa / 10) scale
    else ofParts? negative mantissa (scale + 1)

def quotientAt (negative : Bool) (n d scale : Nat) : Option Decimal :=
  let mantissa := halfEven (n * tenTo scale) d
  if mantissa < mantissaBound then trimZeros negative mantissa scale
  else
    match scale with
    | 0 => none
    | shorter + 1 => trimZeros negative (halfEven (n * tenTo shorter) d) shorter

def fitQuotient (negative : Bool) (n d : Nat) : Option Decimal :=
  (quotientScale n d maxScale).bind (quotientAt negative n d)

/-- When the mantissas divide, their quotient keeps the difference of the
scales, and a negative difference is multiplied away. What rounds to zero has no
sign, and there is no quotient by zero. -/
def div (a b : Decimal) : Option Decimal :=
  let negative := a.negative != b.negative
  if b.mantissa = 0 then none
  else if a.mantissa = 0 then some zero
  else if a.mantissa % b.mantissa = 0 then
    ofParts? negative (a.mantissa / b.mantissa * tenTo (b.scale - a.scale)) (a.scale - b.scale)
  else
    (fitQuotient negative (a.mantissa * tenTo b.scale) (b.mantissa * tenTo a.scale)).map
      dropZeroSign

end ExchangeDesk.Decimal
