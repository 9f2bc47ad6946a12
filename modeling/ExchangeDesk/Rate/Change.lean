import ExchangeDesk.Rate.Basic

/-!
# Changes of a rate

A request for changes names new values for some fields. `Rate.apply` keeps the
ones that differ from the rate, lists them in the order of the fields and gives
the rate with the listed changes made.
-/

namespace ExchangeDesk

structure RateChanges where
  date : Option Date := none
  type : Option RateType := none
  currency : Option CurrencyCode := none
  amount : Option Decimal := none
  deriving DecidableEq, Repr

inductive RateChange where
  | date (value : Date)
  | type (value : RateType)
  | currency (value : CurrencyCode)
  | amount (value : Decimal)
  deriving DecidableEq, Repr

def RateChange.field : RateChange → String
  | .date _ => "date"
  | .type _ => "typeId"
  | .currency _ => "currency"
  | .amount _ => "amount"

def RateChange.isCurrency : RateChange → Bool
  | .currency _ => true
  | _ => false

namespace Rate

def set (r : Rate) : RateChange → Rate
  | .date value => { r with date := value }
  | .type value => { r with type := value }
  | .currency value => { r with currency := value }
  | .amount value => { r with amount := value }

def replay (r : Rate) (changes : List RateChange) : Rate := changes.foldl set r

def currencyChange (r : Rate) : Option CurrencyCode → Except DeskError (Option CurrencyCode)
  | none => .ok none
  | some code => do
    let code ← CurrencyCode.parse code.text
    return if code = r.currency then none else some code

/-- A new amount at six digits, if it differs as a number. The error names the
currency that the rate is about to have. -/
def amountChange (r : Rate) (currency : CurrencyCode) :
    Option Decimal → Except DeskError (Option Decimal)
  | none => .ok none
  | some amount =>
    let rounded := amount.round rateScale
    if rounded.isPositive then .ok (if rounded == r.amount then none else some rounded)
    else .error (.invalidRateAmount (some r.id) currency amount)

def changesOf (r : Rate) (changes : RateChanges) : Except DeskError (List RateChange) := do
  let date := changes.date.filter (· ≠ r.date)
  let type := changes.type.filter (· ≠ r.type)
  let currency ← r.currencyChange changes.currency
  let amount ← r.amountChange (currency.getD r.currency) changes.amount
  return [date.map .date, type.map .type, currency.map .currency, amount.map .amount].flatMap Option.toList

def apply (r : Rate) (changes : RateChanges) : Except DeskError (Rate × List RateChange) := do
  let applied ← r.changesOf changes
  return (r.replay applied, applied)

end Rate
end ExchangeDesk
