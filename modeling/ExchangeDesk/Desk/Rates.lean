import ExchangeDesk.Desk.Store
import ExchangeDesk.Rate.Change

/-!
# Rates at the desk

Creating, changing and finding rates. The rate in force on a date is the latest
one dated on or before it, and of several on that date the one stored last.
-/

namespace ExchangeDesk.Desk

open ExchangeDesk.Action

-- ---------------------------------------------------------------------------
-- Rates in force
-- ---------------------------------------------------------------------------

def resolveAsOf (currency : CurrencyCode) (type : RateType) (asOf : Date) :
    Action DeskError Rate := do
  match ← concealing .exchangeRate (Store.findRateAsOf currency type asOf) with
  | some rate =>
    note .debug .resolver s!"resolved {currency} {type} as of {asOf}: {rate}"
    return rate
  | none => fail (.rateNotFound currency type asOf)

def resolveNumberAsOf (currency : CurrencyCode) (number : Int) (asOf : Date) :
    Action DeskError Rate :=
  match RateType.ofNumber? number with
  | some type => resolveAsOf currency type asOf
  | none => fail (.invalidRateType number)

-- ---------------------------------------------------------------------------
-- Administration
-- ---------------------------------------------------------------------------

def requireCurrency (code : CurrencyCode) : Action DeskError Currency := do
  orFail (.currencyNotFound code) (← concealing .organisationCurrency (Store.findCurrency code))

def createRate (rate : NewRate) : Action DeskError Rate := do
  let rate ← ofExcept rate.validated
  let _ ← requireCurrency rate.currency
  let stored ← concealing .exchangeRate (Store.insertRate rate)
  note .info .rates s!"exchange rate created: {stored}"
  return stored

def retrieveRate (id : RateId) : Action DeskError Rate := do
  orFail (.rateIdNotFound id) (← concealing .exchangeRate (Store.findRate id))

def updateRate (id : RateId) (changes : RateChanges) :
    Action DeskError (Rate × List RateChange) := do
  let current ← retrieveRate id
  let (next, applied) ← ofExcept (current.apply changes)
  if applied.isEmpty then return (current, applied)
  if applied.any RateChange.isCurrency then
    let _ ← requireCurrency next.currency
  concealing .exchangeRate (Store.replaceRate next)
  let fields := ", ".intercalate (applied.map RateChange.field)
  note .info .rates s!"exchange rate {id} updated ({fields})"
  return (next, applied)

def retrieveAllRates : Action DeskError (List Rate) :=
  concealing .exchangeRate Store.listRates

end ExchangeDesk.Desk
