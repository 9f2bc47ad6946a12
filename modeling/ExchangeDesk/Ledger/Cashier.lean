import ExchangeDesk.Calendar.Date
import ExchangeDesk.Currency.Code
import ExchangeDesk.Decimal.Printer
import ExchangeDesk.Identifier

/-!
# Cashiers and their tills

A cashier is a staff member at a teller's till in an office. What comes into
the till or leaves it is recorded as a transaction.
-/

namespace ExchangeDesk

structure Cashier where
  id : CashierId
  staff : StaffId
  teller : TellerId
  office : OfficeId
  deriving DecidableEq, Repr

inductive Direction where
  | inward
  | outward
  deriving DecidableEq, Repr

namespace Direction

def all : List Direction := [.inward, .outward]

def name : Direction → String
  | .inward => "INWARD_CASH"
  | .outward => "OUTWARD_CASH"

def label : Direction → String
  | .inward => "Cash In"
  | .outward => "Cash Out"

end Direction

structure CashTransaction where
  cashier : CashierId
  direction : Direction
  amount : Decimal
  currency : CurrencyCode
  date : Date
  note : Option String
  deriving DecidableEq, Repr

end ExchangeDesk
