import ExchangeDesk.Calendar.Instant
import ExchangeDesk.Error

/-!
# Exchange records

One record is one leg of an exchange: a user gives an amount of one currency
and takes an amount of another, at a stored rate.
-/

namespace ExchangeDesk

structure ActingUser where
  user : UserId
  staff : StaffId
  deriving DecidableEq, Repr

structure Client where
  id : Option String := none
  name : Option String := none
  deriving DecidableEq, Repr

def Client.validate (c : Client) : Except DeskError Unit := do
  checkClientField .clientId c.id
  checkClientField .clientName c.name

structure NewExchange where
  rate : RateId
  user : ActingUser
  currencyFrom : CurrencyCode
  currencyTo : CurrencyCode
  client : Client
  date : Date
  createdAt : Instant
  amountGiven : Decimal
  amountTaken : Decimal
  deriving DecidableEq, Repr

structure Exchange extends NewExchange where
  id : ExchangeId
  deriving DecidableEq, Repr

namespace Exchange

def touches (e : Exchange) (currency : CurrencyCode) : Bool :=
  e.currencyFrom = currency || e.currencyTo = currency

/-- Two records agree, amounts being compared as numbers. -/
def agrees (a b : Exchange) : Bool :=
  a.amountGiven == b.amountGiven && a.amountTaken == b.amountTaken &&
    { a with amountGiven := b.amountGiven, amountTaken := b.amountTaken } = b

end Exchange
end ExchangeDesk
