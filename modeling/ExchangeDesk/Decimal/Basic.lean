import ExchangeDesk.Power
import ExchangeDesk.Rounding

/-!
# Decimals

A decimal is a sign, a mantissa below `2 ^ 96` and a scale of at most 28
fraction digits; it stands for `±mantissa / 10 ^ scale`. The scale is part of
the datum: `100` and `100.00` print differently. `==`, `≤` and `<` compare the
numbers they stand for, while `=` also compares the scale and the sign of zero.
-/

namespace ExchangeDesk

/-- Mantissas stay below this bound, `2 ^ 96`. -/
abbrev mantissaBound : Nat := 79228162514264337593543950336

abbrev maxScale : Nat := 28

structure Decimal where
  negative : Bool
  mantissa : Nat
  scale : Nat
  mantissa_lt : mantissa < mantissaBound := by decide
  scale_le : scale ≤ maxScale := by decide
  deriving DecidableEq, Repr

namespace Decimal

def ofParts? (negative : Bool) (mantissa scale : Nat) : Option Decimal :=
  if h : mantissa < mantissaBound ∧ scale ≤ maxScale then
    some ⟨negative, mantissa, scale, h.1, h.2⟩
  else none

def dropZeroSign (d : Decimal) : Decimal := { d with negative := d.negative && d.mantissa != 0 }

def zero : Decimal := ⟨false, 0, 0, by decide, by decide⟩

instance : Inhabited Decimal := ⟨zero⟩

def ofUInt32 (n : UInt32) : Decimal :=
  ⟨false, n.toNat, 0, Nat.lt_trans n.toNat_lt (by decide), by decide⟩

-- ---------------------------------------------------------------------------
-- The number that a decimal stands for
-- ---------------------------------------------------------------------------

def signed (d : Decimal) : Int :=
  if d.negative then -(d.mantissa : Int) else d.mantissa

/-- The number that a decimal stands for. -/
def value (d : Decimal) : Rat := mkRat d.signed (tenTo d.scale)

def aligned (a b : Decimal) : Int × Int :=
  (a.signed * tenTo b.scale, b.signed * tenTo a.scale)

instance : BEq Decimal := ⟨fun a b => decide ((aligned a b).1 = (aligned a b).2)⟩

instance : LE Decimal := ⟨fun a b => (aligned a b).1 ≤ (aligned a b).2⟩

instance : LT Decimal := ⟨fun a b => (aligned a b).1 < (aligned a b).2⟩

instance (a b : Decimal) : Decidable (a ≤ b) := Int.decLe _ _

instance (a b : Decimal) : Decidable (a < b) := Int.decLt _ _

def isPositive (d : Decimal) : Bool := !d.negative && d.mantissa != 0

-- ---------------------------------------------------------------------------
-- Sign and scale
-- ---------------------------------------------------------------------------

def neg (d : Decimal) : Decimal := { d with negative := !d.negative }

instance : Neg Decimal := ⟨neg⟩

/-- Rounds to `places` fraction digits, a half to the even digit; with no more digits than that a
number stays as it is. What rounds to zero loses its sign. -/
def round (d : Decimal) (places : Nat) : Decimal :=
  if h : d.scale ≤ places then d
  else
    let rounded : Decimal := { d with
      mantissa := halfEven d.mantissa (tenTo (d.scale - places))
      scale := places
      mantissa_lt := Nat.lt_of_le_of_lt (halfEven_le (tenTo_pos _)) d.mantissa_lt
      scale_le := Nat.le_trans (Nat.le_of_lt (Nat.lt_of_not_le h)) d.scale_le }
    if d.mantissa = 0 then rounded else rounded.dropZeroSign

def appendZeros : Nat → Decimal → Decimal
  | 0, d => d
  | count + 1, d =>
    if h : d.mantissa * 10 < mantissaBound ∧ d.scale + 1 ≤ maxScale then
      appendZeros count { d with
        mantissa := d.mantissa * 10, scale := d.scale + 1, mantissa_lt := h.1, scale_le := h.2 }
    else d

/-- Brings a number towards `places` fraction digits and keeps its sign: zeros
are appended while they fit, and digits that are too many are dropped, a half
going up. -/
def rescale (d : Decimal) (places : Nat) : Decimal :=
  if h : d.scale ≤ places then appendZeros (places - d.scale) d
  else
    { d with
      mantissa := halfUp d.mantissa (tenTo (d.scale - places))
      scale := places
      mantissa_lt :=
        Nat.lt_of_le_of_lt (halfUp_le (tenTo_pos _)) d.mantissa_lt
      scale_le := Nat.le_trans (Nat.le_of_lt (Nat.lt_of_not_le h)) d.scale_le }

end Decimal
end ExchangeDesk
