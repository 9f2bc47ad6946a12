import ExchangeDesk.Decimal.Arithmetic
import ExchangeDesk.Rate.Basic

/-!
# Converting amounts

Rates are quoted in units of the home currency, so an amount becomes home
currency by multiplication and leaves it by division. A quotient is rounded,
half to even, at the scale of the desk.
-/

namespace ExchangeDesk

def Rate.positiveAmount (r : Rate) : Except DeskError Decimal :=
  if r.amount.isPositive then .ok r.amount
  else .error (.invalidRateAmount (some r.id) r.currency r.amount)

def convertToHome (amount : Decimal) (rate : Rate) : Except DeskError Decimal := do
  let factor ← rate.positiveAmount
  match amount.mul factor with
  | some product => return product
  | none => throw (.amountOverflow amount factor)

def convertFromHome (scale : Nat) (amount : Decimal) (rate : Rate) : Except DeskError Decimal := do
  let divisor ← rate.positiveAmount
  match amount.div divisor with
  | some quotient => return (quotient.round scale).rescale scale
  | none => throw (.amountOverflow amount divisor)

end ExchangeDesk
