import ExchangeDesk.Calendar.Date
import ExchangeDesk.Decimal.Printer
import ExchangeDesk.Ledger.Account
import ExchangeDesk.Rate.Type
import ExchangeDesk.Text.Quoted

/-!
# Errors

`DeskError` is why the desk refuses an operation, `StoreError` why a store
fails. A store's own words are for the log; callers learn only which resource
was affected.
-/

namespace ExchangeDesk

inductive AmountField where
  | amount
  | amountGiven
  | amountTaken
  deriving DecidableEq, Repr

def AmountField.name : AmountField → String
  | .amount => "amount"
  | .amountGiven => "amountGiven"
  | .amountTaken => "amountTaken"

inductive ClientField where
  | clientId
  | clientName
  deriving DecidableEq, Repr

def ClientField.name : ClientField → String
  | .clientId => "clientId"
  | .clientName => "clientName"

abbrev clientFieldLimit : Nat := 50

inductive Resource where
  | cashier
  | cashierTransaction
  | journalEntry
  | activityAccount
  | exchangeRate
  | organisationCurrency
  | forexExchange
  deriving DecidableEq, Repr

def Resource.name : Resource → String
  | .cashier => "cashier"
  | .cashierTransaction => "cashier transaction"
  | .journalEntry => "journal entry"
  | .activityAccount => "financial activity account"
  | .exchangeRate => "exchange rate"
  | .organisationCurrency => "organisation currency"
  | .forexExchange => "forex exchange"

inductive DeskError where
  | rateNotFound (currency : CurrencyCode) (type : RateType) (asOf : Date)
  | invalidRateType (number : Int)
  | invalidRateAmount (rate : Option RateId) (currency : CurrencyCode) (amount : Decimal)
  | homeCurrencyNotConfigured (flagged : Nat)
  | cashierNotFound (staff : StaffId)
  | accountNotConfigured (activity : Activity) (currency : CurrencyCode)
  | invalidCurrencyPair (currency : CurrencyCode)
  | invalidAmount (field : AmountField) (amount : Decimal)
  | invalidCurrencyCode (code : String)
  | currencyNotFound (code : CurrencyCode)
  | fieldTooLong (field : ClientField)
  | rateIdNotFound (id : RateId)
  | exchangeNotFound (id : ExchangeId)
  | amountOverflow (amount rate : Decimal)
  | dataIntegrity (resource : Resource)
  deriving DecidableEq, Repr

namespace DeskError

def message : DeskError → String
  | .rateNotFound currency type asOf => s!"no {type} rate for {currency} on or before {asOf}"
  | .invalidRateType number => s!"unknown exchange rate type code {number}"
  | .invalidRateAmount _ currency amount =>
    s!"exchange rate for {currency} must be positive, got {amount}"
  | .homeCurrencyNotConfigured flagged =>
    s!"exactly one home currency must be configured, found {flagged}"
  | .cashierNotFound staff => s!"no cashier is assigned to staff {staff}"
  | .accountNotConfigured activity currency =>
    s!"financial activity account {activity} is not configured for {currency}"
  | .invalidCurrencyPair currency => s!"cannot exchange {currency} into itself"
  | .invalidAmount field amount => s!"{field.name} must be positive, got {amount}"
  | .invalidCurrencyCode code => s!"invalid currency code {Text.quoted code}"
  | .currencyNotFound code => s!"currency {code} is not an organisation currency"
  | .fieldTooLong field => s!"{field.name} exceeds {clientFieldLimit} characters"
  | .rateIdNotFound id => s!"exchange rate {id} not found"
  | .exchangeNotFound id => s!"forex exchange {id} not found"
  | .amountOverflow amount rate => s!"amount overflow converting {amount} at rate {rate}"
  | .dataIntegrity resource =>
    s!"unknown data integrity issue with resource: {resource.name}"

def isNotFound : DeskError → Bool
  | .rateNotFound .. | .cashierNotFound .. | .currencyNotFound .. | .rateIdNotFound ..
  | .exchangeNotFound .. => true
  | _ => false

def isConfiguration : DeskError → Bool
  | .homeCurrencyNotConfigured .. | .accountNotConfigured .. | .invalidRateAmount .. => true
  | _ => false

end DeskError

inductive StoreError where
  | constraintViolation (detail : String)
  | conflict (detail : String)
  | unavailable (detail : String)
  deriving DecidableEq, Repr

def StoreError.message : StoreError → String
  | .constraintViolation detail => s!"constraint violation: {detail}"
  | .conflict detail => s!"conflicting write: {detail}"
  | .unavailable detail => s!"store unavailable: {detail}"

-- ---------------------------------------------------------------------------
-- Checks on inbound values
-- ---------------------------------------------------------------------------

def CurrencyCode.parse (s : String) : Except DeskError CurrencyCode :=
  match parse? s with
  | some code => .ok code
  | none => .error (.invalidCurrencyCode s)

def checkPositive (field : AmountField) (amount : Decimal) : Except DeskError Unit :=
  if amount.isPositive then .ok () else .error (.invalidAmount field amount)

def checkClientField (field : ClientField) (value : Option String) : Except DeskError Unit :=
  match value with
  | some text => if clientFieldLimit < text.length then .error (.fieldTooLong field) else .ok ()
  | none => .ok ()

end ExchangeDesk
