import ExchangeDesk.Text.Hidden

/-!
# Quoted text

Text between double quotes for messages: quotes, backslashes and the usual
control characters are written with a backslash, hidden characters as their
number in lowercase hexadecimal between braces.
-/

namespace ExchangeDesk.Text

def quotedChar (c : Char) : List Char :=
  if c = '\x00' then ['\\', '0']
  else if c = '\t' then ['\\', 't']
  else if c = '\r' then ['\\', 'r']
  else if c = '\n' then ['\\', 'n']
  else if c = '\\' then ['\\', '\\']
  else if c = '"' then ['\\', '"']
  else if isHidden c then ['\\', 'u', '\x7b'] ++ Nat.toDigits 16 c.toNat ++ ['\x7d']
  else [c]

def quoted (s : String) : String :=
  String.ofList ('"' :: s.toList.flatMap quotedChar ++ ['"'])

end ExchangeDesk.Text
