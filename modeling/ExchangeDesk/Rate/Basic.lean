import ExchangeDesk.Error

/-!
# Exchange rates

A rate tells how many units of the home currency one unit of its currency is
worth, from its date on. Stored rates have at most six fraction digits.
-/

namespace ExchangeDesk

/-- Fraction digits of stored rates, and of divided amounts unless a desk is
set up otherwise. -/
abbrev rateScale : Nat := 6

structure NewRate where
  date : Date
  type : RateType
  currency : CurrencyCode
  amount : Decimal
  deriving DecidableEq, Repr

/-- Normalises code and amount; an amount that is not positive at six digits is
refused. -/
def NewRate.validated (rate : NewRate) : Except DeskError NewRate := do
  let currency ← CurrencyCode.parse rate.currency.text
  let amount := rate.amount.round rateScale
  if amount.isPositive then return { rate with currency, amount }
  else throw (.invalidRateAmount none currency rate.amount)

structure Rate extends NewRate where
  id : RateId
  deriving DecidableEq, Repr

namespace Rate

def text (r : Rate) : String := s!"#{r.id} {r.currency} {r.type} {r.date} @ {r.amount}"

instance : ToString Rate := ⟨text⟩

end Rate
end ExchangeDesk
