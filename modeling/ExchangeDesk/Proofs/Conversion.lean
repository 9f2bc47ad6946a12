import ExchangeDesk.Exchange.Conversion
import ExchangeDesk.Proofs.Checks
import ExchangeDesk.Proofs.Decimal

/-!
# Converted amounts

When a conversion gives an amount, and when a positive amount is converted to
nothing.
-/

namespace ExchangeDesk

variable {scale : Nat} {amount taken : Decimal} {rate : Rate}

theorem Rate.positiveAmount_ok {factor : Decimal} :
    rate.positiveAmount = .ok factor ↔ rate.amount.isPositive = true ∧ factor = rate.amount := by
  unfold positiveAmount
  split
  · next h => simp [h, eq_comm]
  · next h => simp [h]

theorem convertToHome_ok : convertToHome amount rate = .ok taken ↔
    rate.amount.isPositive = true ∧ amount.mul rate.amount = some taken := by
  simp only [convertToHome, bind_ok, Rate.positiveAmount_ok]
  constructor
  · rintro ⟨_, ⟨hpositive, rfl⟩, h⟩
    split at h
    · next hmul =>
      cases h
      exact ⟨hpositive, hmul⟩
    · cases h
  · rintro ⟨hpositive, hmul⟩
    exact ⟨_, ⟨hpositive, rfl⟩, by rw [hmul]; rfl⟩

theorem convertFromHome_ok : convertFromHome scale amount rate = .ok taken ↔
    rate.amount.isPositive = true ∧ ∃ quotient, amount.div rate.amount = some quotient ∧
      taken = (quotient.round scale).rescale scale := by
  simp only [convertFromHome, bind_ok, Rate.positiveAmount_ok]
  constructor
  · rintro ⟨_, ⟨hpositive, rfl⟩, h⟩
    split at h
    · next hdiv =>
      cases h
      exact ⟨hpositive, _, hdiv, rfl⟩
    · cases h
  · rintro ⟨hpositive, quotient, hdiv, rfl⟩
    exact ⟨_, ⟨hpositive, rfl⟩, by rw [hdiv]; rfl⟩

theorem convertToHome_isPositive (ha : amount.isPositive = true)
    (h : convertToHome amount rate = .ok taken) :
    taken.isPositive = true ↔ ¬ Decimal.LostInProduct amount rate.amount := by
  obtain ⟨hpositive, hmul⟩ := convertToHome_ok.mp h
  exact Decimal.mul_isPositive ha hpositive hmul

theorem convertFromHome_isPositive (ha : amount.isPositive = true)
    (h : convertFromHome scale amount rate = .ok taken) :
    taken.isPositive = true ↔ ¬ Decimal.LostInQuotient scale amount rate.amount := by
  obtain ⟨hpositive, quotient, hdiv, rfl⟩ := convertFromHome_ok.mp h
  obtain ⟨hn, hvanishes⟩ := Decimal.div_vanishes ha hpositive hdiv
  rw [Decimal.rescale_isPositive (quotient.round_scale_le scale), Decimal.isPositive_iff, ne_eq,
    Decimal.round_mantissa_eq_zero, hvanishes]
  simp [Decimal.round_negative hn]

end ExchangeDesk
