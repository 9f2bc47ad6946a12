import ExchangeDesk.Desk.Session

/-!
# The store behind a desk

Each call to the store is counted and may fail before it reaches the book.
Lookups of currencies try the registry of the environment first. Writes of
exchanges and postings wait in the unit of work until it is committed.
-/

namespace ExchangeDesk.Store

open ExchangeDesk.Action

def reach (call : StoreCall) : Action StoreError Unit := fun env s =>
  let s' := { s with calls := s.calls ++ [call] }
  match env.faults call (s.calls.count call) with
  | some e => (.error e, s')
  | none => (.ok (), s')

-- ---------------------------------------------------------------------------
-- Rates
-- ---------------------------------------------------------------------------

def findRateAsOf (currency : CurrencyCode) (type : RateType) (date : Date) :
    Action StoreError (Option Rate) := do
  reach .findRateAsOf
  return (← book).findRateAsOf currency type date

def findRate (id : RateId) : Action StoreError (Option Rate) := do
  reach .findRate
  return (← book).findRate id

def listRates : Action StoreError (List Rate) := do
  reach .listRates
  return (← book).listRates

def insertRate (rate : NewRate) : Action StoreError Rate := do
  reach .insertRate
  let (stored, b) := (← book).insertRate rate
  setBook b
  return stored

def replaceRate (rate : Rate) : Action StoreError Unit := do
  reach .replaceRate
  setBook (← ofExcept ((← book).replaceRate rate))

-- ---------------------------------------------------------------------------
-- Setup
-- ---------------------------------------------------------------------------

def findCurrency (code : CurrencyCode) : Action StoreError (Option Currency) := do
  reach .findCurrency
  return (((← environment).registry.find? (·.code = code)).or ((← book).findCurrency code))

def homeCurrencies : Action StoreError (List Currency) := do
  reach .homeCurrencies
  return (← book).homeCurrencies ++ (← environment).registry.filter (·.isHome)

def findCashier (staff : StaffId) : Action StoreError (Option Cashier) := do
  reach .findCashier
  return (← book).findCashier staff

def findAccount (activity : Activity) (currency : CurrencyCode) :
    Action StoreError (Option ActivityAccount) := do
  reach .findAccount
  return (← book).findAccount activity currency

-- ---------------------------------------------------------------------------
-- Exchanges
-- ---------------------------------------------------------------------------

def findExchange (id : ExchangeId) : Action StoreError (Option Exchange) := do
  reach .findExchange
  return (← book).findExchange id

def listExchanges : Action StoreError (List Exchange) := do
  reach .listExchanges
  return (← book).listExchanges

def replaceExchange (exchange : Exchange) : Action StoreError Unit := do
  reach .replaceExchange
  setBook (← ofExcept ((← book).replaceExchange exchange))

def deleteExchange (id : ExchangeId) : Action StoreError Bool := do
  reach .deleteExchange
  let (found, b) := (← book).deleteExchange id
  setBook b
  return found

-- ---------------------------------------------------------------------------
-- The unit of work
-- ---------------------------------------------------------------------------

def begin : Action StoreError Unit := do
  reach .begin
  modify fun s => { s with staged := {} }

/-- The number is drawn from the book at once, the record waits. -/
def insertExchange (exchange : NewExchange) : Action StoreError Exchange := do
  reach .insertExchange
  let (stored, b) := (← book).numberExchange exchange
  setBook b
  modify fun s => { s with
    staged.exchanges := s.staged.exchanges ++ [stored]
    drafts.exchanges := s.drafts.exchanges ++ [stored] }
  return stored

def recordTransaction (transaction : CashTransaction) : Action StoreError Unit := do
  reach .recordTransaction
  modify fun s => { s with staged.transactions := s.staged.transactions ++ [transaction] }

def postEntry (entry : JournalEntry) : Action StoreError Unit := do
  reach .postEntry
  modify fun s => { s with staged.journal := s.staged.journal ++ [entry] }

def commit : Action StoreError Unit := do
  reach .commit
  fun _ s =>
    match s.book.commit s.staged with
    | .ok book => (.ok (), { s with book, staged := {} })
    | .error e => (.error e, s)

end ExchangeDesk.Store
