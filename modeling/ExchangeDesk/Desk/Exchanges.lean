import ExchangeDesk.Desk.Posting
import ExchangeDesk.Desk.Rates
import ExchangeDesk.Exchange.Change
import ExchangeDesk.Exchange.Conversion

/-!
# Exchanges at the desk

A request is checked, routed, planned and committed. Currency that is not home
currency becomes home currency at its buying rate, and home currency becomes
another at the selling rate of that one; an exchange of two other currencies
does both. All legs are planned before the first one is written.
-/

namespace ExchangeDesk

structure ExchangeRequest where
  currencyFrom : CurrencyCode
  currencyTo : CurrencyCode
  amount : Decimal
  date : Date
  user : ActingUser
  client : Client := {}
  deriving DecidableEq, Repr

/-- How an exchange passes the home currency. -/
inductive Route where
  | toHome
  | fromHome
  | cross (home : CurrencyCode)
  deriving DecidableEq, Repr

def Route.text : Route → String
  | .toHome => "ToHome"
  | .fromHome => "FromHome"
  | .cross home => s!"Cross \x7b home: CurrencyCode({Text.quoted home.text}) \x7d"

structure PlannedLeg where
  rate : Rate
  currencyFrom : CurrencyCode
  currencyTo : CurrencyCode
  amountGiven : Decimal
  amountTaken : Decimal
  deriving DecidableEq, Repr

structure ExecutedLeg where
  exchange : Exchange
  postings : LegPostings
  deriving DecidableEq, Repr

namespace Desk

open ExchangeDesk.Action

-- ---------------------------------------------------------------------------
-- Routing and planning
-- ---------------------------------------------------------------------------

def homeCurrency : Action DeskError Currency := do
  match ← concealing .organisationCurrency Store.homeCurrencies with
  | [home] => return home
  | homes => fail (.homeCurrencyNotConfigured homes.length)

/-- Two home currencies at once are an error, even if the registry then knows
only one. -/
def route (source target : Currency) : Action DeskError Route := do
  match source.isHome, target.isHome with
  | false, true => return .toHome
  | true, false => return .fromHome
  | false, false => return .cross (← homeCurrency).code
  | true, true =>
    let _ ← homeCurrency
    fail (.homeCurrencyNotConfigured 2)

def planToHome (source home : CurrencyCode) (amount : Decimal) (date : Date) :
    Action DeskError PlannedLeg := do
  let rate ← resolveAsOf source .buying date
  let taken ← ofExcept (convertToHome amount rate)
  return ⟨rate, source, home, amount, taken⟩

def planFromHome (home target : CurrencyCode) (amount : Decimal) (date : Date) :
    Action DeskError PlannedLeg := do
  let rate ← resolveAsOf target .selling date
  let taken ← ofExcept (convertFromHome (← environment).rateScale amount rate)
  return ⟨rate, home, target, amount, taken⟩

def plan (route : Route) (source target : CurrencyCode) (amount : Decimal) (date : Date) :
    Action DeskError (List PlannedLeg) := do
  match route with
  | .toHome => return [← planToHome source target amount date]
  | .fromHome => return [← planFromHome source target amount date]
  | .cross home =>
    let first ← planToHome source home amount date
    let second ← planFromHome home target first.amountTaken date
    return [first, second]

-- ---------------------------------------------------------------------------
-- Committing
-- ---------------------------------------------------------------------------

def PlannedLeg.record (p : PlannedLeg) (request : ExchangeRequest) (now : Instant) :
    NewExchange :=
  { rate := p.rate.id, user := request.user, currencyFrom := p.currencyFrom
    currencyTo := p.currencyTo, client := request.client, date := request.date, createdAt := now
    amountGiven := p.amountGiven, amountTaken := p.amountTaken }

def writeLeg (request : ExchangeRequest) (now : Instant) (p : PlannedLeg) :
    Action DeskError ExecutedLeg := do
  let exchange ← concealing .forexExchange (Store.insertExchange (PlannedLeg.record p request now))
  let postings ← postLeg exchange now
  return { exchange, postings }

def writeLegs (request : ExchangeRequest) (now : Instant) :
    List PlannedLeg → Action DeskError (List ExecutedLeg)
  | [] => return []
  | p :: rest => do
    let leg ← writeLeg request now p
    return leg :: (← writeLegs request now rest)

def committedText (e : Exchange) : String :=
  s!"forex exchange {e.id} committed: {e.amountGiven} {e.currencyFrom} -> {e.amountTaken} " ++
    s!"{e.currencyTo} at rate #{e.rate}"

def noteCommitted : List ExecutedLeg → Action DeskError Unit
  | [] => return ()
  | leg :: rest => do
    note .info .engine (committedText leg.exchange)
    noteCommitted rest

def commitLegs (request : ExchangeRequest) (plans : List PlannedLeg) :
    Action DeskError (List ExecutedLeg) := do
  concealing .forexExchange Store.begin
  let now ← readClock
  let legs ← writeLegs request now plans
  concealing .forexExchange Store.commit
  noteCommitted legs
  return legs

def strandedText (request : ExchangeRequest) (number total : Nat) (e : DeskError)
    (done : List ExecutedLeg) : String :=
  s!"leg {number} of {total} for {request.currencyFrom} -> {request.currencyTo} failed " ++
    s!"({e.message}); committed exchange(s) " ++
    ", ".intercalate (done.map fun leg => toString leg.exchange.id) ++
    " stand without their counter-leg"

/-- Commits legs one by one. `done` holds the ones committed so far. -/
def commitEach (request : ExchangeRequest) (total : Nat) (done : List ExecutedLeg) :
    List PlannedLeg → Action DeskError (List ExecutedLeg)
  | [] => return done
  | p :: rest => do
    let legs ← onError (commitLegs request [p]) fun e =>
      if done.isEmpty then return ()
      else note .error .engine (strandedText request (done.length + 1) total e done)
    commitEach request total (done ++ legs) rest

def execute (request : ExchangeRequest) : Action DeskError (List ExecutedLeg) := do
  if request.currencyFrom.sameSpelling request.currencyTo then
    fail (.invalidCurrencyPair request.currencyFrom)
  else
    let sourceCode ← ofExcept (CurrencyCode.parse request.currencyFrom.text)
    let targetCode ← ofExcept (CurrencyCode.parse request.currencyTo.text)
    ofExcept (checkPositive .amount request.amount)
    ofExcept request.client.validate
    let source ← requireCurrency sourceCode
    let target ← requireCurrency targetCode
    let way ← route source target
    note .debug .engine
      (s!"exchanging {request.amount} {source.code} into {target.code} on {request.date}: " ++
        way.text)
    let plans ← plan way source.code target.code request.amount request.date
    match (← environment).atomicity with
    | .allLegs => commitLegs request plans
    | .perLeg => commitEach request plans.length [] plans

-- ---------------------------------------------------------------------------
-- Records
-- ---------------------------------------------------------------------------

def retrieveExchange (id : ExchangeId) : Action DeskError Exchange := do
  orFail (.exchangeNotFound id) (← concealing .forexExchange (Store.findExchange id))

def checkReference : ExchangeChange → Action DeskError Unit
  | .rate id => do
    let _ ← orFail (.rateIdNotFound id) (← concealing .exchangeRate (Store.findRate id))
  | .currencyFrom code | .currencyTo code => do
    let _ ← requireCurrency code
  | _ => return ()

def checkReferences : List ExchangeChange → Action DeskError Unit
  | [] => return ()
  | c :: rest => do
    checkReference c
    checkReferences rest

/-- Changes fields of a stored exchange and gives what changed. Amounts are not
computed again and nothing is posted; without a change nothing is written. -/
def updateExchange (id : ExchangeId) (changes : ExchangeChanges) :
    Action DeskError (List ExchangeChange) := do
  let current ← retrieveExchange id
  let (next, applied) ← ofExcept (current.apply changes)
  if applied.isEmpty then return applied
  checkReferences applied
  concealing .forexExchange (Store.replaceExchange next)
  let fields := ", ".intercalate (applied.map ExchangeChange.field)
  if applied.any ExchangeChange.diverges then
    note .warn .engine
      (s!"forex exchange {id} updated ({fields}); " ++
        "cashier and journal postings were not re-issued")
  else note .info .engine s!"forex exchange {id} updated ({fields})"
  return applied

/-- Removes a record; what was posted for it stays. -/
def deleteExchange (id : ExchangeId) : Action DeskError Unit := do
  if ← concealing .forexExchange (Store.deleteExchange id) then
    note .warn .engine
      (s!"forex exchange {id} deleted; " ++
        "its cashier and journal postings were not reversed")
  else fail (.exchangeNotFound id)

def retrieveAllExchanges : Action DeskError (List Exchange) :=
  concealing .forexExchange Store.listExchanges

def retrieveCashierExchanges (staff : StaffId) (currency : CurrencyCode) :
    Action DeskError (List Exchange) := do
  return (← retrieveAllExchanges).filter fun e => e.user.staff = staff && e.touches currency

end Desk
end ExchangeDesk
