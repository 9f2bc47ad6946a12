/-!
# Numerals

Numbers written in ASCII digits: reading runs of digits, and writing with zeros
in front up to a width.
-/

namespace ExchangeDesk.Text

def isDigit (c : Char) : Bool := '0' ≤ c && c ≤ '9'

def digitValue (c : Char) : Nat := c.toNat - '0'.toNat

def digit? (c : Char) : Option Nat := if isDigit c then some (digitValue c) else none

def ofDigits (digits : List Char) : Nat := digits.foldl (fun n c => n * 10 + digitValue c) 0

def digits? (cs : List Char) : Option Nat :=
  if cs.isEmpty || cs.any (!isDigit ·) then none else some (ofDigits cs)

def unsigned? : List Char → Option Nat
  | '+' :: rest => digits? rest
  | cs => digits? cs

def signed? : List Char → Option Int
  | '-' :: rest => (digits? rest).map fun n => -(n : Int)
  | cs => (unsigned? cs).map Int.ofNat

def padded (width n : Nat) : List Char :=
  let digits := Nat.toDigits 10 n
  List.replicate (width - digits.length) '0' ++ digits

end ExchangeDesk.Text
