import ExchangeDesk.Exchange.Basic

/-!
# Changes of an exchange record

As with rates, `Exchange.apply` keeps the requested values that differ, lists
them in the order of the fields and gives the record with the listed changes
made. The two currencies have to differ afterwards, also if nothing changes.
-/

namespace ExchangeDesk

/-- Fields that are `none` stay as they are; a text about the client that is
`some none` is cleared. -/
structure ExchangeChanges where
  rate : Option RateId := none
  currencyFrom : Option CurrencyCode := none
  currencyTo : Option CurrencyCode := none
  clientId : Option (Option String) := none
  clientName : Option (Option String) := none
  date : Option Date := none
  amountGiven : Option Decimal := none
  amountTaken : Option Decimal := none
  deriving DecidableEq, Repr

inductive ExchangeChange where
  | rate (value : RateId)
  | currencyFrom (value : CurrencyCode)
  | currencyTo (value : CurrencyCode)
  | clientId (value : Option String)
  | clientName (value : Option String)
  | date (value : Date)
  | amountGiven (value : Decimal)
  | amountTaken (value : Decimal)
  deriving DecidableEq, Repr

namespace ExchangeChange

def field : ExchangeChange → String
  | .rate _ => "exchangeRateId"
  | .currencyFrom _ => "currencyFrom"
  | .currencyTo _ => "currencyTo"
  | .clientId _ => "clientId"
  | .clientName _ => "clientName"
  | .date _ => "transactionDate"
  | .amountGiven _ => "amountGiven"
  | .amountTaken _ => "amountTaken"

/-- The record no longer agrees with what was posted for it. -/
def diverges : ExchangeChange → Bool
  | .clientId _ | .clientName _ => false
  | _ => true

end ExchangeChange

namespace Exchange

def set (e : Exchange) : ExchangeChange → Exchange
  | .rate value => { e with rate := value }
  | .currencyFrom value => { e with currencyFrom := value }
  | .currencyTo value => { e with currencyTo := value }
  | .clientId value => { e with client := { e.client with id := value } }
  | .clientName value => { e with client := { e.client with name := value } }
  | .date value => { e with date := value }
  | .amountGiven value => { e with amountGiven := value }
  | .amountTaken value => { e with amountTaken := value }

def replay (e : Exchange) (changes : List ExchangeChange) : Exchange := changes.foldl set e

def codeChange (old : CurrencyCode) :
    Option CurrencyCode → Except DeskError (Option CurrencyCode)
  | none => .ok none
  | some code => do
    let code ← CurrencyCode.parse code.text
    return if code = old then none else some code

def clientChange (field : ClientField) (old : Option String) :
    Option (Option String) → Except DeskError (Option (Option String))
  | none => .ok none
  | some value => do
    checkClientField field value
    return if value = old then none else some value

def positiveChange (field : AmountField) (old : Decimal) :
    Option Decimal → Except DeskError (Option Decimal)
  | none => .ok none
  | some amount => do
    checkPositive field amount
    return if amount == old then none else some amount

def changesOf (e : Exchange) (changes : ExchangeChanges) :
    Except DeskError (List ExchangeChange) := do
  let rate := changes.rate.filter (· ≠ e.rate)
  let currencyFrom ← codeChange e.currencyFrom changes.currencyFrom
  let currencyTo ← codeChange e.currencyTo changes.currencyTo
  let clientId ← clientChange .clientId e.client.id changes.clientId
  let clientName ← clientChange .clientName e.client.name changes.clientName
  let date := changes.date.filter (· ≠ e.date)
  let amountGiven ← positiveChange .amountGiven e.amountGiven changes.amountGiven
  let amountTaken ← positiveChange .amountTaken e.amountTaken changes.amountTaken
  return [rate.map .rate, currencyFrom.map .currencyFrom, currencyTo.map .currencyTo,
    clientId.map .clientId, clientName.map .clientName, date.map .date,
    amountGiven.map .amountGiven, amountTaken.map .amountTaken].flatMap Option.toList

def apply (e : Exchange) (changes : ExchangeChanges) :
    Except DeskError (Exchange × List ExchangeChange) := do
  let applied ← e.changesOf changes
  let next := e.replay applied
  if next.currencyFrom = next.currencyTo then throw (.invalidCurrencyPair next.currencyFrom)
  else return (next, applied)

end Exchange
end ExchangeDesk
