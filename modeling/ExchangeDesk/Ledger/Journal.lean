import ExchangeDesk.Calendar.Instant
import ExchangeDesk.Ledger.Cashier

/-!
# The journal

Journal entries come in pairs of a debit and a credit. The two entries of one
cash movement share a correlation id.
-/

namespace ExchangeDesk

structure CorrelationId where
  text : String
  deriving DecidableEq, Repr

namespace CorrelationId

instance : ToString CorrelationId := ⟨text⟩

def hex (n : Nat) : List Char := Nat.toDigits 16 n

/-- Time in milliseconds, user, office and sequence number in lowercase
hexadecimal with dashes between. Times before 1970 count as its start. -/
def generate (instant : Instant) (user : UserId) (office : OfficeId) (sequence : Nat) :
    CorrelationId :=
  ⟨String.ofList (hex instant.millis.toNat ++ '-' :: hex user.number ++ '-' :: hex office.number ++
    '-' :: hex sequence)⟩

end CorrelationId

inductive EntrySide where
  | debit
  | credit
  deriving DecidableEq, Repr

namespace EntrySide

def all : List EntrySide := [.credit, .debit]

def name : EntrySide → String
  | .debit => "DEBIT"
  | .credit => "CREDIT"

end EntrySide

structure JournalEntry where
  office : OfficeId
  glAccount : GlAccountId
  currency : CurrencyCode
  /-- The rate of the leg that the entry was posted for. -/
  rate : RateId
  correlation : CorrelationId
  manual : Bool
  date : Date
  side : EntrySide
  amount : Decimal
  description : Option String
  deriving DecidableEq, Repr

def JournalEntry.signedAmount (e : JournalEntry) : Decimal :=
  match e.side with
  | .debit => e.amount
  | .credit => -e.amount

end ExchangeDesk
