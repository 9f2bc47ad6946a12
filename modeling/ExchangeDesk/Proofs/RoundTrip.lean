import ExchangeDesk.Proofs.Conversion
import ExchangeDesk.Proofs.Precision
import ExchangeDesk.Proofs.Setup

/-!
# Into home currency and back

An amount becomes home currency by a product that is exact where a decimal stands for it, and
rounded or refused where none does (`convertToHome_exact_iff`). What is brought home exactly and
taken out at a rate that is no better comes back as at most the amount that it was, and as the
same at the same rate (`convert_roundTrip`).
-/

namespace ExchangeDesk

variable {scale : ℕ} {amount : Decimal} {rate buying selling : Rate}

-- ---------------------------------------------------------------------------
-- Both conversions
-- ---------------------------------------------------------------------------

theorem convertToHome_cases (amount : Decimal) (hrate : rate.amount.isPositive = true) :
    (∃ product, convertToHome amount rate = .ok product ∧
        product.Fitted (amount.value * rate.amount.value)) ∨
      convertToHome amount rate = .error (.amountOverflow amount rate.amount) ∧
        roundingLimit ≤ |amount.value * rate.amount.value| := by
  have hrounded := Decimal.mul_rounded amount rate.amount
  have hfactor : rate.positiveAmount = .ok rate.amount := Rate.positiveAmount_ok.mpr ⟨hrate, rfl⟩
  cases hmul : amount.mul rate.amount with
  | none =>
    rw [hmul] at hrounded
    cases hrounded with
    | overflow hlarge => exact .inr ⟨by simp [convertToHome, hfactor, hmul, bind_error]; rfl, hlarge⟩
  | some product =>
    rw [hmul] at hrounded
    exact .inl ⟨product, convertToHome_ok.mpr ⟨hrate, hmul⟩, hrounded.fitted_of_some⟩

/-- `convertToHome` returns the product rounded to fit a decimal (`Fitted`), which is the exact
product exactly if that is a decimal; from `roundingLimit` on a product is an overflow. -/
theorem convertToHome_exact_iff (amount : Decimal) (hrate : rate.amount.isPositive = true) :
    (∃ product, convertToHome amount rate = .ok product ∧
        product.Fitted (amount.value * rate.amount.value) ∧
        (product.value = amount.value * rate.amount.value ↔
          ∃ d : Decimal, d.value = amount.value * rate.amount.value)) ∨
      convertToHome amount rate = .error (.amountOverflow amount rate.amount) ∧
        roundingLimit ≤ |amount.value * rate.amount.value| := by
  refine (convertToHome_cases amount hrate).imp_left ?_
  rintro ⟨product, hok, hfitted⟩
  exact ⟨product, hok, hfitted, fun h => ⟨product, h⟩, fun ⟨_, h⟩ => hfitted.exact h⟩

def dollarsAt (amount : Decimal) : Rate :=
  { date := openingDay, type := .buying, currency := ⟨"USD"⟩, amount, id := ⟨1⟩ }

/-- An amount and a rate whose product has 29 digits of a fraction. -/
def fineAmount : Decimal := { negative := false, mantissa := 1000000000000001, scale := 15 }

def fineRate : Rate := dollarsAt { negative := false, mantissa := 100000000000001, scale := 14 }

theorem convertToHome_exact_iff_fine :
    fineRate.amount.isPositive = true ∧ ∃ product, convertToHome fineAmount fineRate = .ok product ∧
      product.text = "1.0000000000000110000000000000" ∧
      product.value ≠ fineAmount.value * fineRate.amount.value ∧
      ¬ ∃ d : Decimal, d.value = fineAmount.value * fineRate.amount.value := by
  have hpositive : fineRate.amount.isPositive = true := by decide
  have hrounded : (convertToHome fineAmount fineRate).map (fun product => (product.text,
      decide (product.value = fineAmount.value * fineRate.amount.value))) =
      .ok ("1.0000000000000110000000000000", false) := by decide +kernel
  rcases convertToHome_exact_iff fineAmount hpositive with
    ⟨product, hok, -, hexact⟩ | ⟨herror, -⟩
  · rw [hok] at hrounded
    have hne : product.value ≠ fineAmount.value * fineRate.amount.value := by
      simpa [Except.map] using congrArg (Except.map Prod.snd) hrounded
    refine ⟨hpositive, product, hok, ?_, hne, fun h => hne (hexact.mpr h)⟩
    simpa [Except.map] using congrArg (Except.map Prod.fst) hrounded
  · rw [herror] at hrounded
    cases hrounded

theorem convertFromHome_isOk (scale : ℕ) (hrate : rate.amount.isPositive = true)
    (hfits : |amount.value / rate.amount.value| < roundingLimit) :
    ∃ quotient : Decimal, quotient.Fitted (amount.value / rate.amount.value) ∧
      convertFromHome scale amount rate = .ok ((quotient.round scale).rescale scale) := by
  have hm := (Decimal.isPositive_iff.mp hrate).2
  obtain ⟨quotient, hdiv, hfitted⟩ := (Decimal.div_rounded amount hm).exists_of_lt hfits
  exact ⟨quotient, hfitted, convertFromHome_ok.mpr ⟨hrate, quotient, hdiv, rfl⟩⟩

-- ---------------------------------------------------------------------------
-- One after the other
-- ---------------------------------------------------------------------------

/-- An amount whose product with the buying rate is a decimal converts to this product. Converted
back at a selling rate that is not lower, that gives no more than the amount, and the amount itself
at an equal rate. -/
theorem convert_roundTrip (ha : amount.isPositive = true)
    (hdigits : ∃ k : ℤ, amount.value * 10 ^ scale = k)
    (hbuying : buying.amount.isPositive = true) (hle : buying.amount ≤ selling.amount)
    (hproduct : ∃ d : Decimal, d.value = amount.value * buying.amount.value) :
    ∃ home back, convertToHome amount buying = .ok home ∧
      home.value = amount.value * buying.amount.value ∧
      convertFromHome scale home selling = .ok back ∧ back.value ≤ amount.value ∧
      (selling.amount.value = buying.amount.value → back.value = amount.value) := by
  have ha := Decimal.isPositive_iff_value.mp ha
  have hb := Decimal.isPositive_iff_value.mp hbuying
  have hle := Decimal.le_iff_value.mp hle
  have hs := hb.trans_le hle
  obtain ⟨home, hhome, hexact⟩ : ∃ home, convertToHome amount buying = .ok home ∧
      home.value = amount.value * buying.amount.value := by
    obtain ⟨d, hd⟩ := hproduct
    rcases convertToHome_cases amount hbuying with ⟨home, hok, hfitted⟩ | ⟨-, hlarge⟩
    · exact ⟨home, hok, hfitted.exact hd⟩
    · exact absurd d.abs_value_lt (not_lt.mpr (hd ▸ hlarge))
  have hnonneg : 0 ≤ home.value / selling.amount.value := by
    rw [hexact]
    positivity
  have hquotient : home.value / selling.amount.value ≤ amount.value := by
    rw [hexact, div_le_iff₀ hs]
    gcongr
  have hfits : |home.value / selling.amount.value| < roundingLimit := by
    rw [abs_of_nonneg hnonneg]
    exact (hquotient.trans (le_abs_self _)).trans_lt amount.abs_value_lt
  obtain ⟨quotient, hfitted, hback⟩ :=
    convertFromHome_isOk scale (Decimal.isPositive_iff_value.mpr hs) hfits
  refine ⟨home, _, hhome, hexact, hback, ?_, fun hsame => ?_⟩
  · rw [Decimal.rescale_value (quotient.round_scale_le scale)]
    exact Decimal.round_le_of_le hdigits (hfitted.le_of_le hnonneg hquotient)
  · have hrecovered : home.value / selling.amount.value = amount.value := by
      rw [hexact, hsame, mul_div_cancel_right₀ _ hb.ne']
    have hkept : quotient.value = amount.value :=
      (hfitted.exact hrecovered.symm).trans hrecovered
    rw [Decimal.rescale_value (quotient.round_scale_le scale),
      Decimal.round_of_whole (hkept ▸ hdigits), hkept]

def someDollars : Decimal := { negative := false, mantissa := 1333333, scale := 6 }

theorem convert_roundTrip_dollars :
    ∃ home back less, convertToHome someDollars (dollarsAt (.whole 3650)) = .ok home ∧
      home.text = "4866.665450" ∧
      convertFromHome rateScale home (dollarsAt (.whole 3650)) = .ok back ∧
      back.value = someDollars.value ∧
      convertFromHome rateScale home (dollarsAt (.whole 3700)) = .ok less ∧
      less.value ≤ someDollars.value := by
  have hdigits : ∃ k : ℤ, someDollars.value * 10 ^ rateScale = k :=
    ⟨1333333, by decide +kernel⟩
  have hproduct : ∃ d : Decimal,
      d.value = someDollars.value * (dollarsAt (.whole 3650)).amount.value :=
    ⟨{ negative := false, mantissa := 4866665450, scale := 6 }, by decide +kernel⟩
  have hequal : (dollarsAt (.whole 3650)).amount ≤ (dollarsAt (.whole 3650)).amount := by decide
  have hworse : (dollarsAt (.whole 3650)).amount ≤ (dollarsAt (.whole 3700)).amount := by decide
  obtain ⟨home, back, hhome, -, hback, -, hsame⟩ :=
    convert_roundTrip (by decide) hdigits (by decide) hequal hproduct
  obtain ⟨_, less, hhome', -, hless, hle, -⟩ :=
    convert_roundTrip (by decide) hdigits (by decide) hworse hproduct
  obtain rfl : home = _ := Except.ok.inj (hhome.symm.trans hhome')
  have htext : (convertToHome someDollars (dollarsAt (.whole 3650))).map (·.text) =
      .ok "4866.665450" := by decide +kernel
  rw [hhome] at htext
  exact ⟨home, back, less, hhome, Except.ok.inj htext, hback, hsame rfl, hless, hle⟩

end ExchangeDesk
