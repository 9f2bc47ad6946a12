import ExchangeDesk.Decimal.Arithmetic
import ExchangeDesk.Text.Numeral

/-!
# Reading decimals

A plain numeral is an optional sign, digits and at most one point; underscores
may follow the first digit and count for nothing. The fraction ends at the
first digit that no longer fits: it alone decides the rounding, a half going up,
and what follows it is then only checked for stray characters. Digits of the
whole part that do not fit are an error. There is one underscore that counts: at
the end of a fraction that is full it stands for a zero, if the number is one of
few digits.

A text that is no plain numeral and has an `e` is read in scientific notation.
-/

namespace ExchangeDesk.Decimal

inductive ReadError where
  | empty
  | noDigits
  | unknownCharacter
  | secondPoint
  | leadingSeparator
  | tooManyDigits
  | roundedPastLimit
  | unreadableExponent
  | scaleTooLarge (scale : Nat)
  | tooLarge
  deriving DecidableEq, Repr

def ReadError.message : ReadError → String
  | .empty => "Invalid decimal: empty"
  | .noDigits => "Invalid decimal: no digits found"
  | .unknownCharacter => "Invalid decimal: unknown character"
  | .secondPoint => "Invalid decimal: two decimal points"
  | .leadingSeparator => "Invalid decimal: must start lead with a number"
  | .tooManyDigits => "Invalid decimal: overflow from too many digits"
  | .roundedPastLimit => "Invalid decimal: overflow from mantissa after rounding"
  | .unreadableExponent => "Failed to parse"
  | .scaleTooLarge scale =>
    s!"Scale exceeds the maximum precision allowed: {scale} > {maxScale}"
  | .tooLarge => "Number exceeds maximum value that can be represented."

def ReadError.ofStray (c : Char) : ReadError :=
  if c = '.' then .secondPoint
  else if c = '_' then .leadingSeparator
  else .unknownCharacter

def push (d : Decimal) (fraction : Bool) (digit : Nat) : Option Decimal :=
  if h : d.mantissa * 10 + digit < mantissaBound ∧ d.scale + fraction.toNat ≤ maxScale then
    some ⟨d.negative, d.mantissa * 10 + digit, d.scale + fraction.toNat, h.1, h.2⟩
  else none

/-- Rounds up at the last digit. A mantissa that passes the limit gives up one
digit of its fraction. -/
def roundUp (d : Decimal) : Except ReadError Decimal :=
  if h : d.mantissa + 1 < mantissaBound then
    .ok { d with mantissa := d.mantissa + 1, mantissa_lt := h }
  else if d.scale = 0 then .error .roundedPastLimit
  else
    .ok { d with
      mantissa := (d.mantissa + 5) / 10
      scale := d.scale - 1
      mantissa_lt := by
        have := d.mantissa_lt
        omega
      scale_le := by
        have := d.scale_le
        omega }

/-- The first digit without a place decides the rounding. -/
def endFraction (d : Decimal) (digit : Nat) (rest : List Char) : Except ReadError Decimal := do
  let rounded ← if 5 ≤ digit then roundUp d else .ok d
  match rest.find? fun c => !Text.isDigit c && c != '_' with
  | some stray => .error (.ofStray stray)
  | none => .ok rounded

/-- A number has few digits as long as all but its last one stay below this
bound: a tenth of a word of 64 bits, less one byte. -/
abbrev fewDigitsBound : Nat := 1844674407370954906

/-- The fraction is full, and an underscore now ends it. -/
def endsAtSeparator (d : Decimal) : Bool :=
  d.scale = maxScale && d.mantissa / 10 < fewDigitsBound

/-- Reads on from the number read so far. `started` says that there was a digit
already, `fraction` that there was a point. -/
def readDigits (started fraction : Bool) (d : Decimal) : List Char → Except ReadError Decimal
  | [] => if started then .ok d else .error .noDigits
  | c :: rest =>
    match Text.digit? c with
    | some digit =>
      match d.push fraction digit with
      | some d => readDigits true fraction d rest
      | none => if fraction then endFraction d digit rest else .error .tooManyDigits
    | none =>
      if c = '_' && started then
        if d.endsAtSeparator then endFraction d 0 rest
        else readDigits started fraction d rest
      else if c = '.' && !fraction then readDigits started true d rest
      else .error (.ofStray c)

def readPlainChars : List Char → Except ReadError Decimal
  | [] => .error .empty
  | '-' :: rest => (readDigits false false (-zero) rest).map dropZeroSign
  | '+' :: rest => readDigits false false zero rest
  | cs => readDigits false false zero cs

-- ---------------------------------------------------------------------------
-- Scientific notation
-- ---------------------------------------------------------------------------

def readExponent (cs : List Char) : Except ReadError Nat :=
  match Text.unsigned? cs with
  | some n => if n < UInt32.size then .ok n else .error .unreadableExponent
  | none => .error .unreadableExponent

/-- Moves the point to the left. Digits that this would push past the largest
scale are rounded away first, a half going up. -/
def lowerBy (d : Decimal) (places : Nat) : Except ReadError Decimal :=
  if places ≤ maxScale then
    if h : d.scale + places ≤ maxScale then
      .ok { d with scale := d.scale + places, scale_le := h }
    else
      .ok { d.rescale (maxScale - places) with scale := maxScale, scale_le := Nat.le_refl _ }
  else .error (.scaleTooLarge places)

def raiseBy (d : Decimal) (places : Nat) : Except ReadError Decimal :=
  if places ≤ d.scale then
    .ok { d with
      scale := d.scale - places, scale_le := Nat.le_trans (Nat.sub_le _ _) d.scale_le }
  else if maxScale < places then .error (.scaleTooLarge places)
  else
    match ofParts? d.negative (d.mantissa * tenTo (places - d.scale)) 0 with
    | some d => .ok d
    | none => .error .tooLarge

def isExponentMark (c : Char) : Bool := c = 'e' || c = 'E'

def readScientificChars (cs : List Char) : Except ReadError Decimal := do
  let base ← readPlainChars (cs.takeWhile (!isExponentMark ·))
  match (cs.dropWhile (!isExponentMark ·)).drop 1 with
  | '-' :: digits => lowerBy base (← readExponent digits)
  | digits => raiseBy base (← readExponent digits)

def readChars (cs : List Char) : Except ReadError Decimal :=
  match readPlainChars cs with
  | .ok d => .ok d
  | .error e => if cs.any isExponentMark then readScientificChars cs else .error e

def read (s : String) : Except ReadError Decimal := readChars s.toList

end ExchangeDesk.Decimal
