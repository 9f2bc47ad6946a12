import ExchangeDesk.Currency.Code
import ExchangeDesk.Identifier

/-!
# Ledger accounts of the cash

Cash lies in the main vault or at a teller. For each currency a ledger account
stands for either place.
-/

namespace ExchangeDesk

inductive Activity where
  | cashAtMainVault
  | cashAtTeller
  deriving DecidableEq, Repr

namespace Activity

def all : List Activity := [.cashAtMainVault, .cashAtTeller]

def name : Activity → String
  | .cashAtMainVault => "CASH_AT_MAINVAULT"
  | .cashAtTeller => "CASH_AT_TELLER"

instance : ToString Activity := ⟨name⟩

end Activity

structure ActivityAccount where
  activity : Activity
  currency : CurrencyCode
  glAccount : GlAccountId
  deriving DecidableEq, Repr

end ExchangeDesk
