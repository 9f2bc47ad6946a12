/-!
# Kinds of rates

A rate is quoted for buying a currency, for selling it, or for reference. Each
kind has a number, which is its code in stored data, and a name.
-/

namespace ExchangeDesk

inductive RateType where
  | buying
  | selling
  | intermediary
  deriving DecidableEq, Repr

namespace RateType

def all : List RateType := [.buying, .selling, .intermediary]

def number : RateType → Int
  | .buying => 1
  | .selling => 2
  | .intermediary => 3

def name : RateType → String
  | .buying => "BUYING"
  | .selling => "SELLING"
  | .intermediary => "INTERMEDIARY"

instance : ToString RateType := ⟨name⟩

def captionCode : RateType → String
  | .buying => "exchangeRateType.buying"
  | .selling => "exchangeRateType.selling"
  | .intermediary => "exchangeRateType.intermediary"

def ofNumber? (n : Int) : Option RateType := all.find? (·.number == n)

end RateType
end ExchangeDesk
