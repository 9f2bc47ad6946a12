import ExchangeDesk.Desk.Store

/-!
# Posting a leg

For each leg the cashier of the acting staff pays out the amount given and takes
in the amount taken. Cash that goes out debits the main vault and credits the
teller; cash that comes in debits the teller and credits the vault.
-/

namespace ExchangeDesk.Desk

open ExchangeDesk.Action

def findAccount (activity : Activity) (currency : CurrencyCode) : Action DeskError GlAccountId := do
  let account ← orFail (.accountNotConfigured activity currency)
    (← concealing .activityAccount (Store.findAccount activity currency))
  return account.glAccount

def cashTransaction (leg : Exchange) (cashier : Cashier) (direction : Direction)
    (amount : Decimal) (currency : CurrencyCode) : CashTransaction :=
  { cashier := cashier.id, direction, amount, currency, date := leg.date, note := leg.client.name }

def journalEntry (leg : Exchange) (cashier : Cashier) (transaction : CashTransaction)
    (correlation : CorrelationId) (side : EntrySide) (glAccount : GlAccountId) : JournalEntry :=
  { office := cashier.office, glAccount, currency := transaction.currency, rate := leg.rate
    correlation, manual := false, date := transaction.date, side, amount := transaction.amount
    description := transaction.note }

def movement (leg : Exchange) (cashier : Cashier) (direction : Direction) (amount : Decimal)
    (currency : CurrencyCode) (instant : Instant) : Action DeskError CashMovement := do
  let vault ← findAccount .cashAtMainVault currency
  let teller ← findAccount .cashAtTeller currency
  let (debit, credit) := match direction with
    | .inward => (teller, vault)
    | .outward => (vault, teller)
  let transaction := cashTransaction leg cashier direction amount currency
  let correlation :=
    CorrelationId.generate instant leg.user.user cashier.office (← drawSequence)
  let entry := journalEntry leg cashier transaction correlation
  let m : CashMovement :=
    { transaction, debit := entry .debit debit, credit := entry .credit credit }
  draftMovement m
  return m

def preparePostings (leg : Exchange) (instant : Instant) : Action DeskError LegPostings := do
  let cashier ← orFail (.cashierNotFound leg.user.staff)
    (← concealing .cashier (Store.findCashier leg.user.staff))
  let outward ← movement leg cashier .outward leg.amountGiven leg.currencyFrom instant
  let inward ← movement leg cashier .inward leg.amountTaken leg.currencyTo instant
  return { outward, inward }

def recordMovement (m : CashMovement) : Action DeskError Unit := do
  concealing .cashierTransaction (Store.recordTransaction m.transaction)
  concealing .journalEntry (Store.postEntry m.debit)
  concealing .journalEntry (Store.postEntry m.credit)

def postLeg (leg : Exchange) (instant : Instant) : Action DeskError LegPostings := do
  let postings ← preparePostings leg instant
  recordMovement postings.outward
  recordMovement postings.inward
  return postings

end ExchangeDesk.Desk
