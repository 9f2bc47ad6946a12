import ExchangeDesk.Json.Basic

/-!
# Writing JSON

Two layouts: `compact` without any blanks, and `pretty` with one member or item
a line, indented by two blanks a level. Strings keep all characters as they are
but the quote, the backslash and control characters.
-/

namespace ExchangeDesk.Json

def hexPad (n : Nat) : List Char :=
  let digits := Nat.toDigits 16 n
  List.replicate (4 - digits.length) '0' ++ digits

def escape (c : Char) : List Char :=
  if c = '"' then ['\\', '"']
  else if c = '\\' then ['\\', '\\']
  else if c = '\x08' then ['\\', 'b']
  else if c = '\x0c' then ['\\', 'f']
  else if c = '\n' then ['\\', 'n']
  else if c = '\r' then ['\\', 'r']
  else if c = '\t' then ['\\', 't']
  else if c.toNat < 0x20 then '\\' :: 'u' :: hexPad c.toNat
  else [c]

def quoted (s : String) : String := String.ofList ('"' :: s.toList.flatMap escape ++ ['"'])

def scalarText : Json → String
  | .bool true => "true"
  | .bool false => "false"
  | .int n => toString n
  | .double negative magnitude =>
    String.ofList ((if negative then ['-'] else []) ++ magnitude.text)
  | .str s => quoted s
  | _ => "null"

def bracket (opening closing : String) (pieces : List String) : String :=
  opening ++ ",".intercalate pieces ++ closing

def openBrace : String := "\x7b"

def closeBrace : String := "\x7d"

mutual
def compact : Json → String
  | .arr items => bracket "[" "]" (compactItems items)
  | .obj members => bracket openBrace closeBrace (compactMembers members)
  | j => scalarText j

def compactItems : List Json → List String
  | [] => []
  | j :: rest => compact j :: compactItems rest

def compactMembers : List (String × Json) → List String
  | [] => []
  | (name, j) :: rest => (quoted name ++ ":" ++ compact j) :: compactMembers rest
end

def newline (depth : Nat) : String := "\n" ++ String.ofList (List.replicate (2 * depth) ' ')

def block (depth : Nat) (opening closing : String) (pieces : List String) : String :=
  if pieces.isEmpty then opening ++ closing
  else
    opening ++ newline (depth + 1) ++ ("," ++ newline (depth + 1)).intercalate pieces ++
      newline depth ++ closing

mutual
def prettyAt (depth : Nat) : Json → String
  | .arr items => block depth "[" "]" (prettyItems (depth + 1) items)
  | .obj members => block depth openBrace closeBrace (prettyMembers (depth + 1) members)
  | j => scalarText j

def prettyItems (depth : Nat) : List Json → List String
  | [] => []
  | j :: rest => prettyAt depth j :: prettyItems depth rest

def prettyMembers (depth : Nat) : List (String × Json) → List String
  | [] => []
  | (name, j) :: rest => (quoted name ++ ": " ++ prettyAt depth j) :: prettyMembers depth rest
end

def pretty (j : Json) : String := prettyAt 0 j

end ExchangeDesk.Json
