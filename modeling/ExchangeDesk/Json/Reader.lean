import ExchangeDesk.Json.Basic

/-!
# Reading JSON

`Json.read` accepts exactly one document with blanks around it, where a blank
is a space, a tab, a line feed or a carriage return. Strings hold no control
characters. Each reader returns what it read and the rest of the text.
-/

namespace ExchangeDesk.Json

open Text (isDigit digitValue ofDigits)

abbrev Reader (α : Type) := List Char → Option (α × List Char)

def isSpace (c : Char) : Bool := c = ' ' || c = '\t' || c = '\n' || c = '\r'

def skipSpace (cs : List Char) : List Char := cs.dropWhile isSpace

-- ---------------------------------------------------------------------------
-- Strings
-- ---------------------------------------------------------------------------

inductive Piece where
  | char (c : Char)
  | unit (n : Nat)
  deriving DecidableEq, Repr

def hexDigit? (c : Char) : Option Nat :=
  if isDigit c then some (digitValue c)
  else if 'a' ≤ c ∧ c ≤ 'f' then some (c.toNat - 'a'.toNat + 10)
  else if 'A' ≤ c ∧ c ≤ 'F' then some (c.toNat - 'A'.toNat + 10)
  else none

def escaped? : Char → Option Char
  | '"' => some '"'
  | '\\' => some '\\'
  | '/' => some '/'
  | 'b' => some '\x08'
  | 'f' => some '\x0c'
  | 'n' => some '\n'
  | 'r' => some '\r'
  | 't' => some '\t'
  | _ => none

def readPieces : Reader (List Piece)
  | '"' :: rest => some ([], rest)
  | '\\' :: 'u' :: a :: b :: c :: d :: rest => do
    let n ← [a, b, c, d].foldlM (fun n h => (hexDigit? h).map (n * 16 + ·)) 0
    let (pieces, rest) ← readPieces rest
    return (.unit n :: pieces, rest)
  | '\\' :: e :: rest => do
    let c ← escaped? e
    let (pieces, rest) ← readPieces rest
    return (.char c :: pieces, rest)
  | c :: rest =>
    if c.toNat < 0x20 then none
    else do
      let (pieces, rest) ← readPieces rest
      return (.char c :: pieces, rest)
  | [] => none

def isHighSurrogate (n : Nat) : Bool := 0xD800 ≤ n && n < 0xDC00

def isLowSurrogate (n : Nat) : Bool := 0xDC00 ≤ n && n < 0xE000

/-- Joins surrogate pairs; half of a pair makes the whole string unusable. The
high half waits in the first argument. -/
def joinPieces : Option Nat → List Piece → Option (List Char)
  | none, [] => some []
  | some _, [] => none
  | none, .char c :: rest => (joinPieces none rest).map (c :: ·)
  | some _, .char _ :: _ => none
  | none, .unit n :: rest =>
    if isHighSurrogate n then joinPieces (some n) rest
    else if isLowSurrogate n then none
    else (joinPieces none rest).map (Char.ofNat n :: ·)
  | some high, .unit n :: rest =>
    if isLowSurrogate n then
      (joinPieces none rest).map
        (Char.ofNat (0x10000 + (high - 0xD800) * 0x400 + (n - 0xDC00)) :: ·)
    else none

def readString : Reader (Option String) := fun cs => do
  let (pieces, rest) ← readPieces cs
  return ((joinPieces none pieces).map String.ofList, rest)

-- ---------------------------------------------------------------------------
-- Numbers
-- ---------------------------------------------------------------------------

structure Numeral where
  negative : Bool
  whole : List Char
  fraction : Option (List Char)
  exponent : Option (Bool × List Char)
  deriving DecidableEq, Repr

def readDigits : Reader (List Char) := fun cs =>
  match cs.takeWhile isDigit with
  | [] => none
  | digits => some (digits, cs.dropWhile isDigit)

def readFraction : Reader (Option (List Char))
  | '.' :: rest => (readDigits rest).map fun (digits, rest) => (some digits, rest)
  | cs => some (none, cs)

def readExponent : Reader (Option (Bool × List Char))
  | c :: rest =>
    if c = 'e' || c = 'E' then
      let (negative, digits) := match rest with
        | '-' :: r => (true, r)
        | '+' :: r => (false, r)
        | r => (false, r)
      (readDigits digits).map fun (digits, rest) => (some (negative, digits), rest)
    else some (none, c :: rest)
  | [] => some (none, [])

def readNumeral : Reader Numeral := fun cs => do
  let (negative, cs) := match cs with
    | '-' :: rest => (true, rest)
    | _ => (false, cs)
  let (whole, cs) ← readDigits cs
  if whole.head? = some '0' ∧ whole.length ≠ 1 then none
  else
    let (fraction, cs) ← readFraction cs
    let (exponent, cs) ← readExponent cs
    return (⟨negative, whole, fraction, exponent⟩, cs)

abbrev wordBound : Nat := UInt64.size

/-- The significand of the whole part, and how many of its digits found no
room: from the first one on they only count. -/
def wholeSignificand (digits : List Char) : Nat × Nat :=
  digits.foldl (fun (n, dropped) c =>
    if dropped = 0 ∧ n * 10 + digitValue c < wordBound then (n * 10 + digitValue c, 0)
    else (n, dropped + 1)) (0, 0)

/-- Fraction digits join the significand up to the first one without room; the
second number counts them. -/
def joinFraction (significand : Nat) : List Char → Nat × Nat
  | [] => (significand, 0)
  | c :: rest =>
    if significand * 10 + digitValue c < wordBound then
      let (n, used) := joinFraction (significand * 10 + digitValue c) rest
      (n, used + 1)
    else (significand, 0)

/-- `significand * 10 ^ exponent` by one rounded multiplication or division by
a rounded power of ten. Powers below `10 ^ -308` take one more division for each
308 places; the fuel counts those. -/
def scaled : Nat → Double → Int → Option Double
  | fuel, x, exponent =>
    if x.mantissa = 0 then some x
    else if 308 < exponent then none
    else if 0 ≤ exponent then (Double.ofNat (tenTo exponent.toNat)).bind x.mul
    else if -308 ≤ exponent then (Double.ofNat (tenTo (-exponent).toNat)).bind x.div
    else
      match fuel with
      | 0 => some Double.zero
      | fuel + 1 =>
        match (Double.ofNat (tenTo 308)).bind x.div with
        | some y => scaled fuel y (exponent + 308)
        | none => none

abbrev exponentBound : Nat := 2147483648

def Numeral.double? (n : Numeral) : Option Double :=
  let (whole, dropped) := wholeSignificand n.whole
  let (significand, used) := joinFraction whole (n.fraction.getD [])
  let base : Int := (dropped : Int) - used
  match n.exponent with
  | none => (Double.ofNat significand).bind (scaled 4 · base)
  | some (negative, digits) =>
    let e := ofDigits digits
    if e < exponentBound then
      (Double.ofNat significand).bind (scaled 4 · (if negative then base - e else base + e))
    else if negative || significand = 0 then some Double.zero
    else none

/-- A numeral without fraction and exponent is a whole number if 64 bits hold
it; all others, and minus zero, are magnitudes of double precision. -/
def Numeral.toJson (n : Numeral) : Json :=
  let (whole, dropped) := wholeSignificand n.whole
  let plain := n.fraction.isNone && n.exponent.isNone && dropped = 0
  if plain && !n.negative then .int whole
  else if plain && 0 < whole && 2 * whole ≤ wordBound then .int (-(whole : Int))
  else
    match n.double? with
    | some x => .double n.negative x
    | none => .unusable

-- ---------------------------------------------------------------------------
-- Values
-- ---------------------------------------------------------------------------

mutual
/-- One value, after blanks. The fuel is larger than the text. -/
def readValue : Nat → Reader Json
  | 0, _ => none
  | fuel + 1, cs =>
    match skipSpace cs with
    | 'n' :: 'u' :: 'l' :: 'l' :: rest => some (.null, rest)
    | 't' :: 'r' :: 'u' :: 'e' :: rest => some (.bool true, rest)
    | 'f' :: 'a' :: 'l' :: 's' :: 'e' :: rest => some (.bool false, rest)
    | '"' :: rest =>
      (readString rest).map fun (text, rest) => ((text.map Json.str).getD .unusable, rest)
    | '[' :: rest =>
      match skipSpace rest with
      | ']' :: rest => some (.arr [], rest)
      | rest => (readItems fuel rest).map fun (items, rest) => (.arr items, rest)
    | '{' :: rest =>
      match skipSpace rest with
      | '}' :: rest => some (.obj [], rest)
      | rest =>
        (readMembers fuel rest).map fun (members, rest) =>
          ((members.map Json.obj).getD .unusable, rest)
    | rest => (readNumeral rest).map fun (n, rest) => (n.toJson, rest)

def readItems : Nat → Reader (List Json)
  | 0, _ => none
  | fuel + 1, cs => do
    let (item, cs) ← readValue fuel cs
    match skipSpace cs with
    | ',' :: rest => do
      let (items, rest) ← readItems fuel rest
      return (item :: items, rest)
    | ']' :: rest => some ([item], rest)
    | _ => none

def readMembers : Nat → Reader (Option (List (String × Json)))
  | 0, _ => none
  | fuel + 1, cs =>
    match skipSpace cs with
    | '"' :: rest => do
      let (name, rest) ← readString rest
      match skipSpace rest with
      | ':' :: rest => do
        let (value, rest) ← readValue fuel rest
        match skipSpace rest with
        | ',' :: rest => do
          let (members, rest) ← readMembers fuel rest
          return (name.bind fun name => members.map ((name, value) :: ·), rest)
        | '}' :: rest => some (name.map fun name => [(name, value)], rest)
        | _ => none
      | _ => none
    | _ => none
end

def readChars (cs : List Char) : Option Json :=
  match readValue (cs.length + 1) cs with
  | some (value, rest) => if skipSpace rest = [] then some value else none
  | none => none

def read (s : String) : Option Json := readChars s.toList

end ExchangeDesk.Json
