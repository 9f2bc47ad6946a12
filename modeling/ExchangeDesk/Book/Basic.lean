import ExchangeDesk.Currency.Basic
import ExchangeDesk.Exchange.Basic
import ExchangeDesk.Ledger.Movement
import ExchangeDesk.Rate.Basic

/-!
# The book of an organisation

A book holds the setup (currencies, cashiers, ledger accounts), the rates, the
exchanges and what was posted for them. Rates and exchanges are numbered from
one in the order in which their numbers were drawn; a drawn number is never
drawn again, also if its record does not make it into the book.
-/

namespace ExchangeDesk

structure Records where
  currencies : List Currency := []
  rates : List Rate := []
  cashiers : List Cashier := []
  accounts : List ActivityAccount := []
  exchanges : List Exchange := []
  transactions : List CashTransaction := []
  journal : List JournalEntry := []
  deriving DecidableEq, Repr

structure Book extends Records where
  nextRate : Nat := 1
  nextExchange : Nat := 1
  deriving DecidableEq, Repr

/-- Records that wait to enter a book together. -/
structure Staged where
  exchanges : List Exchange := []
  transactions : List CashTransaction := []
  journal : List JournalEntry := []
  deriving DecidableEq, Repr

namespace Book

def empty : Book := {}

-- ---------------------------------------------------------------------------
-- Setup
-- ---------------------------------------------------------------------------

def findCurrency (b : Book) (code : CurrencyCode) : Option Currency :=
  b.currencies.find? (·.code = code)

def homeCurrencies (b : Book) : List Currency := b.currencies.filter (·.isHome)

def findCashier (b : Book) (staff : StaffId) : Option Cashier :=
  b.cashiers.find? (·.staff = staff)

def findAccount (b : Book) (activity : Activity) (currency : CurrencyCode) :
    Option ActivityAccount :=
  b.accounts.find? fun a => a.activity = activity && a.currency = currency

def storedCode (code : CurrencyCode) : Except StoreError CurrencyCode :=
  match CurrencyCode.parse code.text with
  | .ok code => .ok code
  | .error e => .error (.constraintViolation e.message)

/-- Codes are unique in their normal form, and at most one currency is the home
currency. -/
def addCurrency (b : Book) (currency : Currency) : Except StoreError Book := do
  let code ← storedCode currency.code
  if (b.findCurrency code).isSome then
    throw (.constraintViolation s!"currency {code} already registered")
  match if currency.isHome then b.currencies.find? (·.isHome) else none with
  | some home => throw (.constraintViolation s!"{home.code} is already the home currency")
  | none => return { b with currencies := b.currencies ++ [{ currency with code }] }

def addCashier (b : Book) (cashier : Cashier) : Except StoreError Book :=
  if (b.findCashier cashier.staff).isSome then
    .error (.constraintViolation s!"staff {cashier.staff} already has a cashier assignment")
  else .ok { b with cashiers := b.cashiers ++ [cashier] }

def addAccount (b : Book) (account : ActivityAccount) : Except StoreError Book := do
  let currency ← storedCode account.currency
  if (b.findAccount account.activity currency).isSome then
    throw (.constraintViolation s!"{account.activity} already mapped for {currency}")
  else return { b with accounts := b.accounts ++ [{ account with currency }] }

-- ---------------------------------------------------------------------------
-- Rates
-- ---------------------------------------------------------------------------

def earlier (a b : Rate) : Bool :=
  decide (a.date < b.date) || (a.date = b.date && a.id.number < b.id.number)

def latest (rates : List Rate) : Option Rate :=
  rates.foldl (fun best r =>
    match best with
    | some b => if earlier r b then some b else some r
    | none => some r) none

/-- The rate in force on a date: the latest one of the currency and type that
is not dated after it. -/
def findRateAsOf (b : Book) (currency : CurrencyCode) (type : RateType) (date : Date) :
    Option Rate :=
  latest (b.rates.filter fun r => r.currency = currency && r.type = type && decide (r.date ≤ date))

def findRate (b : Book) (id : RateId) : Option Rate := b.rates.find? (·.id = id)

def listedBefore (a b : Rate) : Bool :=
  if a.currency = b.currency then
    if a.date = b.date then a.id.number ≤ b.id.number else decide (a.date < b.date)
  else decide (a.currency.text < b.currency.text)

def listRates (b : Book) : List Rate := b.rates.mergeSort listedBefore

def insertRate (b : Book) (rate : NewRate) : Rate × Book :=
  let stored : Rate := { rate with id := ⟨b.nextRate⟩ }
  (stored, { b with rates := b.rates ++ [stored], nextRate := b.nextRate + 1 })

def replaceRate (b : Book) (rate : Rate) : Except StoreError Book :=
  if (b.findRate rate.id).isSome then
    .ok { b with rates := b.rates.map fun r => if r.id = rate.id then rate else r }
  else .error (.conflict s!"rate {rate.id} no longer exists")

-- ---------------------------------------------------------------------------
-- Exchanges and postings
-- ---------------------------------------------------------------------------

def findExchange (b : Book) (id : ExchangeId) : Option Exchange :=
  b.exchanges.find? (·.id = id)

def madeBefore (a b : Exchange) : Bool :=
  if a.createdAt = b.createdAt then a.id.number ≤ b.id.number
  else decide (a.createdAt < b.createdAt)

def listExchanges (b : Book) : List Exchange := b.exchanges.mergeSort madeBefore

def replaceExchange (b : Book) (exchange : Exchange) : Except StoreError Book :=
  if (b.findExchange exchange.id).isSome then
    .ok { b with exchanges := b.exchanges.map fun e => if e.id = exchange.id then exchange else e }
  else .error (.conflict s!"exchange {exchange.id} no longer exists")

/-- Tells whether there was such a record. -/
def deleteExchange (b : Book) (id : ExchangeId) : Bool × Book :=
  ((b.findExchange id).isSome, { b with exchanges := b.exchanges.filter (·.id ≠ id) })

/-- Gives a new exchange its number without storing it. -/
def numberExchange (b : Book) (exchange : NewExchange) : Exchange × Book :=
  ({ exchange with id := ⟨b.nextExchange⟩ }, { b with nextExchange := b.nextExchange + 1 })

def commit (b : Book) (staged : Staged) : Except StoreError Book :=
  match staged.exchanges.find? fun e => (b.findExchange e.id).isSome with
  | some clash => .error (.conflict s!"exchange {clash.id} already exists")
  | none =>
    .ok { b with
      exchanges := b.exchanges ++ staged.exchanges
      transactions := b.transactions ++ staged.transactions
      journal := b.journal ++ staged.journal }

def entriesFor (b : Book) (correlation : CorrelationId) : List JournalEntry :=
  b.journal.filter (·.correlation = correlation)

def totals? (b : Book) : Option Totals :=
  b.journal.foldlM (fun totals e => Totals.add e.currency e.signedAmount totals) []

end Book
end ExchangeDesk
