import ExchangeDesk.Currency.Code
import ExchangeDesk.Decimal.Arithmetic

/-!
# Currencies of the organisation

One of them is the home currency, against which all others are quoted. Stored
amounts keep all their digits; `Currency.cash?` rounds an amount to what is
shown and paid.
-/

namespace ExchangeDesk

structure Currency where
  code : CurrencyCode
  name : String
  decimalPlaces : UInt32
  /-- Cash is paid in whole multiples of this number. -/
  multiple : Option UInt32 := none
  symbol : Option String := none
  isHome : Bool := false
  deriving DecidableEq, Repr

namespace Currency

def text (c : Currency) : String :=
  s!"{c.code} ({c.name})" ++ if c.isHome then " [home]" else ""

/-- Rounds to the decimal places of the currency and then to its multiple, a
half going to the even neighbour both times. There is no result if the multiple
nearest to the amount does not fit a decimal. -/
def cash? (c : Currency) (amount : Decimal) : Option Decimal :=
  let rounded := amount.round c.decimalPlaces.toNat
  match c.multiple with
  | some multiple =>
    if 1 < multiple then
      let step := Decimal.ofUInt32 multiple
      (rounded.div step).bind fun count => (count.round 0).mul step
    else some rounded
  | none => some rounded

end Currency
end ExchangeDesk
