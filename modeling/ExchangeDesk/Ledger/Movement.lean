import ExchangeDesk.Decimal.Arithmetic
import ExchangeDesk.Ledger.Journal

/-!
# Cash movements

A movement is a till transaction with the debit and the credit that go with it.
A leg of an exchange moves cash twice: out in the currency given, in in the
currency taken.
-/

namespace ExchangeDesk

structure CashMovement where
  transaction : CashTransaction
  debit : JournalEntry
  credit : JournalEntry
  deriving DecidableEq, Repr

namespace CashMovement

def correlation (m : CashMovement) : CorrelationId := m.debit.correlation

/-- Debit and credit equal the cash moved, in its currency and under one
correlation id. -/
def isBalanced (m : CashMovement) : Bool :=
  m.debit.side = .debit && m.credit.side = .credit &&
    m.debit.amount == m.transaction.amount && m.credit.amount == m.transaction.amount &&
    m.debit.currency = m.transaction.currency && m.credit.currency = m.transaction.currency &&
    m.debit.correlation = m.credit.correlation

end CashMovement

/-- Sums by currency, in the order in which the currencies first appear. -/
abbrev Totals := List (CurrencyCode × Decimal)

def Totals.add (currency : CurrencyCode) (amount : Decimal) : Totals → Option Totals
  | [] => some [(currency, amount)]
  | (c, sum) :: rest =>
    if c = currency then (sum.add amount).map fun sum => (c, sum) :: rest
    else (Totals.add currency amount rest).map ((c, sum) :: ·)

structure LegPostings where
  outward : CashMovement
  inward : CashMovement
  deriving DecidableEq, Repr

namespace LegPostings

def isBalanced (p : LegPostings) : Bool := p.outward.isBalanced && p.inward.isBalanced

def movements (p : LegPostings) : List CashMovement := [p.outward, p.inward]

def entries (p : LegPostings) : List JournalEntry :=
  p.movements.flatMap fun m => [m.debit, m.credit]

def net? (p : LegPostings) : Option Totals :=
  p.entries.foldlM (fun totals e => Totals.add e.currency e.signedAmount totals) []

end LegPostings
end ExchangeDesk
