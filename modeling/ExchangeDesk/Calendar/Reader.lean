import ExchangeDesk.Calendar.Date
import ExchangeDesk.Text.Blank

/-!
# Reading dates

A date is written as year, month and day with a dash between them. Blanks may
stand before each number. A year without a sign has at most four digits, month
and day at most two. In the loose form blanks may also stand before the dashes
and at the end; the strict form refuses them.
-/

namespace ExchangeDesk.Date

inductive ReadError where
  | invalid
  | outOfRange
  | tooShort
  | tooLong
  deriving DecidableEq, Repr

def ReadError.message : ReadError → String
  | .invalid => "input contains invalid characters"
  | .outOfRange => "input is out of range"
  | .tooShort => "premature end of input"
  | .tooLong => "trailing input"

inductive Form where
  | strict
  | loose
  deriving DecidableEq, Repr

abbrev Reader (α : Type) := List Char → Except ReadError (α × List Char)

/-- Numbers are collected in a signed word of 64 bits, below `2 ^ 63`. -/
abbrev numberBound : Nat := 9223372036854775808

def readNumber (width : Option Nat) : Reader Nat := fun cs =>
  let run := cs.takeWhile Text.isDigit
  let digits := match width with
    | some width => run.take width
    | none => run
  if cs.isEmpty then .error .tooShort
  else if digits.isEmpty then .error .invalid
  else
    let n := Text.ofDigits digits
    if n < numberBound then .ok (n, cs.drop digits.length) else .error .outOfRange

def checkYear (year : Int) : Except ReadError Int :=
  if -2147483648 ≤ year ∧ year < 2147483648 then .ok year else .error .outOfRange

def readYear : Reader Int := fun cs => do
  match Text.trimStart cs with
  | '-' :: rest =>
    let (n, rest) ← readNumber none rest
    return (← checkYear (-(n : Int)), rest)
  | '+' :: rest =>
    let (n, rest) ← readNumber none rest
    return (← checkYear n, rest)
  | rest =>
    let (n, rest) ← readNumber (some 4) rest
    return (← checkYear n, rest)

def readPart (limit : Nat) : Reader Nat := fun cs => do
  let (n, rest) ← readNumber (some 2) (Text.trimStart cs)
  if 1 ≤ n ∧ n ≤ limit then .ok (n, rest) else .error .outOfRange

/-- Blanks that only the loose form admits. -/
def skipLoose (form : Form) (cs : List Char) : List Char :=
  match form with
  | .strict => cs
  | .loose => Text.trimStart cs

def readDash (form : Form) (cs : List Char) : Except ReadError (List Char) :=
  match skipLoose form cs with
  | '-' :: rest => .ok rest
  | [] => .error .tooShort
  | _ => .error .invalid

def readChars (form : Form) (cs : List Char) : Except ReadError Date := do
  let (year, cs) ← readYear cs
  let cs ← readDash form cs
  let (month, cs) ← readPart 12 cs
  let cs ← readDash form cs
  let (day, cs) ← readPart 31 cs
  match skipLoose form cs with
  | [] =>
    match ofParts? year month day with
    | some d => .ok d
    | none => .error .outOfRange
  | _ => .error .tooLong

def read (form : Form) (s : String) : Except ReadError Date := readChars form s.toList

end ExchangeDesk.Date
