import ExchangeDesk.Text.Blank

/-!
# Currency codes

Records may hold any text as a code. A normal code is three capital ASCII
letters; `parse?` finds it in any case and with blanks around it.
-/

namespace ExchangeDesk

structure CurrencyCode where
  text : String
  deriving DecidableEq, Repr

namespace CurrencyCode

instance : ToString CurrencyCode := ⟨text⟩

def isLetter (c : Char) : Bool := ('a' ≤ c && c ≤ 'z') || ('A' ≤ c && c ≤ 'Z')

/-- Three letters between blanks, as capitals. The length is that in UTF-8, where a letter
has one byte and other characters may have three. -/
def parse? (s : String) : Option CurrencyCode :=
  let trimmed := Text.trim s.toList
  if trimmed.all isLetter && (String.ofList trimmed).utf8ByteSize = 3 then
    some ⟨String.ofList (trimmed.map Char.toUpper)⟩
  else none

def sameSpelling (a b : CurrencyCode) : Bool :=
  (Text.trim a.text.toList).map Char.toUpper == (Text.trim b.text.toList).map Char.toUpper

end CurrencyCode
end ExchangeDesk
