import Mathlib.Data.List.TakeWhile
import ExchangeDesk.Proofs.Ledger
import ExchangeDesk.Proofs.Rates
import ExchangeDesk.Proofs.Reachable
import ExchangeDesk.Proofs.RoundTrip

/-!
# Amounts that leave home currency

An amount that leaves home currency is a quotient, rounded to as many digits as fit and then to
the digits of the desk, with zeros up to those. It has all of them exactly if there is room for
them (`takenDigits_iff`), and then it is the nearest such number unless the quotient that was
rounded first is `Astray` (`convertFromHome_nearest_iff`).
-/

namespace ExchangeDesk

variable {env : Environment} {s : Session} {b : Book} {scale : ℕ} {amount taken : Decimal}
  {rate : Rate}

-- ---------------------------------------------------------------------------
-- The digits of an amount
-- ---------------------------------------------------------------------------

def fractionDigits (text : String) : ℕ := (text.toList.dropWhile (· ≠ '.')).length - 1

theorem Decimal.text_fractionDigits (d : Decimal) : fractionDigits d.text = d.scale := by
  have hplain {cs : List Char} (h : Text.AllDigits cs) :
      ∀ c ∈ (if d.negative then ['-'] else []) ++ cs, decide (c ≠ '.') = true := by
    intro c hc
    rw [decide_eq_true_eq]
    rcases List.mem_append.mp hc with hc | hc
    · rintro rfl
      split at hc <;> simp at hc
    · exact Text.ne_of_isDigit (h c hc) rfl
  rw [fractionDigits, text, String.toList_ofList, chars]
  rcases magnitudeText_cases d.mantissa d.scale with
    ⟨hscale, htext⟩ | ⟨whole, fraction, hwhole, -, -, hscale, -, htext⟩
  · rw [htext, List.dropWhile_eq_nil_iff.mpr (hplain (Text.padded_allDigits 1 _)), hscale]
    rfl
  · rw [htext, ← List.append_assoc, List.dropWhile_append_of_pos (hplain hwhole),
      List.dropWhile_cons_of_neg (by simp), List.length_cons, hscale]
    rfl

/-- The amount taken is the exact quotient rounded to fit a decimal, then to `scale` places, with
zeros appended as far as they fit. -/
theorem convertFromHome_taken (h : convertFromHome scale amount rate = .ok taken) :
    ∃ quotient : Decimal, amount.div rate.amount = some quotient ∧
      quotient.Fitted (amount.value / rate.amount.value) ∧
      taken = (quotient.round scale).rescale scale := by
  obtain ⟨hrate, quotient, hdiv, htaken⟩ := convertFromHome_ok.mp h
  have hrounded := Decimal.div_rounded amount (Decimal.isPositive_iff.mp hrate).2
  rw [hdiv] at hrounded
  exact ⟨quotient, hdiv, hrounded.fitted_of_some, htaken⟩

theorem convertFromHome_scale (ha : 0 ≤ amount.value) (hscale : scale ≤ maxScale)
    (h : convertFromHome scale amount rate = .ok taken) :
    taken.scale ≤ scale ∧
      (taken.scale = scale ↔ amount.value / rate.amount.value * 10 ^ scale < roundingLimit) := by
  obtain ⟨quotient, -, hfitted, rfl⟩ := convertFromHome_taken h
  have hrate := Decimal.isPositive_iff_value.mp (convertFromHome_ok.mp h).1
  have hx : 0 ≤ amount.value / rate.amount.value := by positivity
  have hq := hfitted.nonneg hx
  obtain ⟨m, hm, hround⟩ := quotient.round_nearest scale
  obtain ⟨hle, hfull⟩ := Decimal.rescale_scale (quotient.round_scale_le scale) hscale
  refine ⟨hle, ?_⟩
  have hm0 : 0 ≤ m := hm.ge_of_ge (by rw [Int.cast_zero]; positivity)
  have hdigits : |(quotient.round scale).value| * 10 ^ scale = m := by
    rw [← abs_of_pos (by positivity : (0 : ℚ) < 10 ^ scale), ← abs_mul, hround]
    exact abs_of_nonneg (by exact_mod_cast hm0)
  calc ((quotient.round scale).rescale scale).scale = scale
      ↔ (m : ℚ) < mantissaBound := by rw [hfull, hdigits]
    _ ↔ m < (mantissaBound : ℕ) := by norm_cast
    _ ↔ quotient.value * 10 ^ scale < roundingLimit := hm.lt_bound_iff
    _ ↔ _ := hfitted.lt_limit_iff hx hscale

-- ---------------------------------------------------------------------------
-- Rounded twice
-- ---------------------------------------------------------------------------

/-- An amount taken with all `scale` digits is `Nearest` to the exact quotient unless the quotient
rounded to fit a decimal (`Fitted`) is `Astray`: half way between two such amounts where the exact
one is not, and rounded to the wrong one of them. -/
theorem convertFromHome_nearest_iff (ha : amount.isPositive = true) (hscale : scale ≤ maxScale)
    (h : convertFromHome scale amount rate = .ok taken) (hdigits : taken.scale = scale) :
    ∃ quotient : Decimal, amount.div rate.amount = some quotient ∧
      quotient.Fitted (amount.value / rate.amount.value) ∧
      (Nearest (amount.value / rate.amount.value * 10 ^ scale) taken.signed ↔
        ¬ Astray (amount.value / rate.amount.value * 10 ^ scale) (quotient.value * 10 ^ scale)) := by
  have ha := Decimal.isPositive_iff_value.mp ha
  have hrate := Decimal.isPositive_iff_value.mp (convertFromHome_ok.mp h).1
  have hroom := (convertFromHome_scale ha.le hscale h).2.mp hdigits
  obtain ⟨quotient, hdiv, hfitted, htaken⟩ := convertFromHome_taken h
  refine ⟨quotient, hdiv, hfitted, ?_⟩
  have hx : 0 < amount.value / rate.amount.value := div_pos ha hrate
  generalize amount.value / rate.amount.value = x at hroom hfitted hx ⊢
  have hkept : scale ≤ keptPlaces x := le_keptPlaces hscale (by rwa [abs_of_pos hx])
  have hsplit : (10 : ℚ) ^ keptPlaces x = 10 ^ scale * (tenTo (keptPlaces x - scale) : ℕ) := by
    rw [tenTo_cast, ← pow_add, Nat.add_sub_cancel' hkept]
  have hstep : (0 : ℚ) < (tenTo (keptPlaces x - scale) : ℕ) := by exact_mod_cast tenTo_pos _
  -- rounded once to the digits that fit, and once from there
  obtain ⟨m, hm, hquotient⟩ := hfitted.nearest
  obtain ⟨t, ht, hround⟩ := quotient.round_nearest scale
  have hmiddle : (m : ℚ) / (tenTo (keptPlaces x - scale) : ℕ) = quotient.value * 10 ^ scale := by
    rw [div_eq_iff hstep.ne', ← hquotient, hsplit, mul_assoc]
  have hsigned : taken.signed = t := by
    have hvalue := taken.value_mul_scale
    rw [hdigits, htaken, Decimal.rescale_value (quotient.round_scale_le scale), hround] at hvalue
    rw [htaken]
    exact_mod_cast hvalue.symm
  rw [hsplit, ← mul_assoc] at hm
  rw [← hmiddle] at ht ⊢
  rw [hsigned]
  exact hm.coarser_iff (tenTo_pos _) (tenTo_eq_one_or_even _) ht

/-- A third of this lies just below a middle of six digits, and the seven digits that fit end
on it. -/
def nearMiddle : Decimal := (Decimal.ofParts? false 75000000000000000000000000044 7).getD .zero

theorem convertFromHome_nearest_iff_nearMiddle :
    nearMiddle.text = "7500000000000000000000.0000044" ∧
      ∃ taken, convertFromHome 6 nearMiddle (dollarsAt (.whole 3)) = .ok taken ∧
        taken.text = "2500000000000000000000.000002" ∧ taken.scale = 6 ∧
        ¬ Nearest (nearMiddle.value / (dollarsAt (.whole 3)).amount.value * 10 ^ 6)
          taken.signed := by
  have hconverted : ∃ taken, convertFromHome 6 nearMiddle (dollarsAt (.whole 3)) = .ok taken ∧
      taken.text = "2500000000000000000000.000002" ∧ taken.scale = 6 := by
    refine ⟨{ negative := false, mantissa := 2500000000000000000000000002, scale := 6 }, ?_⟩
    decide +kernel
  obtain ⟨taken, hok, htext, hdigits⟩ := hconverted
  refine ⟨by decide +kernel, taken, hok, htext, hdigits, ?_⟩
  obtain ⟨quotient, hdiv, -, hiff⟩ :=
    convertFromHome_nearest_iff (by decide) (by decide) hok hdigits
  have hquotient : (nearMiddle.div (dollarsAt (.whole 3)).amount).map (·.value * 10 ^ 6) =
      some (2500000000000000000000000001 + 1 / 2) := by decide +kernel
  rw [hdiv] at hquotient
  have hmiddle : quotient.value * 10 ^ 6 = 2500000000000000000000000001 + 1 / 2 :=
    Option.some.inj hquotient
  rw [hiff, not_not, hmiddle]
  refine ⟨2500000000000000000000000001, by norm_num, .inr ⟨by decide +kernel, ?_⟩⟩
  decide +kernel

-- ---------------------------------------------------------------------------
-- Legs out of home currency
-- ---------------------------------------------------------------------------

/-- An exchange gives a currency with the home flag for one without it. -/
def Exchange.LeavesHome (env : Environment) (b : Book) (e : Exchange) : Prop :=
  e.currencyFrom ∈ (flaggedCurrencies env b).map (·.code) ∧
    e.currencyTo ∉ (flaggedCurrencies env b).map (·.code)

instance (env : Environment) (b : Book) (e : Exchange) : Decidable (e.LeavesHome env b) :=
  inferInstanceAs (Decidable (_ ∧ _))

theorem convertToHome_nonneg (ha : 0 ≤ amount.value)
    (h : convertToHome amount rate = .ok taken) : 0 ≤ taken.value := by
  obtain ⟨hrate, hmul⟩ := convertToHome_ok.mp h
  have hrate := Decimal.isPositive_iff_value.mp hrate
  have hrounded := Decimal.mul_rounded amount rate.amount
  rw [hmul] at hrounded
  exact hrounded.fitted_of_some.nonneg (by positivity)

theorem Accepted.outOfHome {request : ExchangeRequest} {source target : Currency} {way : Route}
    {plans : List PlannedLeg} {p : PlannedLeg} (hb : b.Sound)
    (h : Accepted env b request source target way plans) (hp : p ∈ plans)
    (hto : p.currencyTo ∉ (flaggedCurrencies env b).map (·.code)) :
    p.rate ∈ b.rates ∧ p.rate.type = .selling ∧ 0 ≤ p.amountGiven.value ∧
      convertFromHome env.rateScale p.amountGiven p.rate = .ok p.amountTaken := by
  have hamount := (Decimal.isPositive_iff_value.mp h.amount).le
  have hout {home target : CurrencyCode} {amount : Decimal} (ha : 0 ≤ amount.value)
      (hleg : p.OutOfHome env.rateScale b request.date home target amount) :
      p.rate ∈ b.rates ∧ p.rate.type = .selling ∧ 0 ≤ p.amountGiven.value ∧
        convertFromHome env.rateScale p.amountGiven p.rate = .ok p.amountTaken := by
    have hforce := Book.findRateAsOf_inForce hb.rateIds hleg.inForce
    obtain ⟨-, -, rfl, -, hconverted⟩ := hleg
    exact ⟨hforce.stored, hforce.hasType, ha, hconverted⟩
  obtain ⟨code, -, hknown⟩ := h.knowsTarget
  have hplanned := h.planned
  cases h.routed with
  | toHome hs ht =>
    cases hplanned with
    | toHome hleg =>
      obtain rfl := List.mem_singleton.mp hp
      rw [hleg.currencyTo] at hto
      exact absurd (List.mem_map_of_mem (knownCurrency_flagged hknown ht)) hto
  | fromHome hs ht =>
    cases hplanned with
    | fromHome hleg =>
      obtain rfl := List.mem_singleton.mp hp
      exact hout hamount hleg
  | cross hs ht hh =>
    cases hplanned with
    | cross h₁ h₂ =>
      rcases List.mem_cons.mp hp with rfl | hp
      · rw [h₁.currencyTo, hh] at hto
        simp at hto
      · obtain rfl := List.mem_singleton.mp hp
        exact hout (convertToHome_nonneg hamount h₁.converted) h₂

/-- `convertFromHome` returns `scale` digits exactly if the quotient with that many digits is below
`roundingLimit`, and fewer otherwise. So the text of a committed leg that `LeavesHome` has
`rateScale` digits after its point exactly under this condition. -/
theorem takenDigits_iff (hb : Reachable s.book) (tasks : List (Environment × Operation)) :
    (∀ scale ≤ maxScale, ∀ amount rate taken, amount.isPositive = true →
      convertFromHome scale amount rate = .ok taken →
      taken.scale ≤ scale ∧ (taken.scale = scale ↔
        amount.value / rate.amount.value * 10 ^ scale < roundingLimit)) ∧
    ∀ (env : Environment) (op : Operation), env.rateScale ≤ maxScale →
      ∀ e ∈ (run tasks s).book.newExchanges (op.after env (run tasks s)).book,
        e.LeavesHome env (run tasks s).book →
        ∃ rate, (run tasks s).book.findRate e.rate = some rate ∧ rate.type = .selling ∧
          (fractionDigits e.amountTaken.text = env.rateScale ↔
            e.amountGiven.value / rate.amount.value * 10 ^ env.rateScale < roundingLimit) := by
  constructor
  · intro scale hscale amount rate taken ha h
    exact convertFromHome_scale (Decimal.isPositive_iff_value.mp ha).le hscale h
  intro env op hscale e he hleaves
  have hsound := (hb.run tasks).sound
  rcases (op.after_effect env (run tasks s)).quiet_or_exchanged with hquiet |
    ⟨_, _, _, _, _, _, legs, _, haccepted, hcommitted, hdrawn, -⟩
  · rw [hquiet.newExchanges] at he
    cases he
  · rw [hcommitted.newExchanges hdrawn] at he
    obtain ⟨leg, hleg, rfl⟩ := List.mem_map.mp he
    obtain ⟨p, hp, now, id, hrecord⟩ := hcommitted.written.recorded leg hleg
    rw [hrecord] at hleaves ⊢
    obtain ⟨hstored, htype, hgiven, hconverted⟩ :=
      haccepted.outOfHome hsound (List.mem_append_left _ hp) hleaves.2
    refine ⟨p.rate, hsound.findRate_eq hstored, htype, ?_⟩
    rw [Decimal.text_fractionDigits]
    exact (convertFromHome_scale hgiven hscale hconverted).2

def pile : Operation :=
  .execute { currencyFrom := ⟨"UGX"⟩, currencyTo := ⟨"USD"⟩
             amount := .whole 1000000000000000000000000000
             date := openingDay, user := ⟨⟨1⟩, ⟨7⟩⟩ }

theorem takenDigits_iff_pile :
    Reachable smallBook ∧ ∃ e ∈ (pile.after {} { book := smallBook }).book.exchanges,
      e.LeavesHome {} smallBook ∧ e.amountTaken.text = "270270270270270270270270.27027" ∧
      ∃ rate, smallBook.findRate e.rate = some rate ∧
        ¬ e.amountGiven.value / rate.amount.value * 10 ^ rateScale < roundingLimit := by
  have hreachable : Reachable smallBook := .of_snapshot smallBook_loaded
  have hcommitted : ∃ e ∈ (pile.after {} { book := smallBook }).book.exchanges,
      e ∈ smallBook.newExchanges (pile.after {} { book := smallBook }).book ∧
      e.LeavesHome {} smallBook ∧
      e.amountTaken.text = "270270270270270270270270.27027" := by decide +kernel
  obtain ⟨e, he, hnew, hleaves, htext⟩ := hcommitted
  obtain ⟨rate, hrate, -, hiff⟩ :=
    (takenDigits_iff (s := { book := smallBook }) hreachable []).2 {} pile (by decide) e hnew hleaves
  refine ⟨hreachable, e, he, hleaves, htext, rate, hrate, hiff.not.mp ?_⟩
  rw [htext]
  decide +kernel

end ExchangeDesk
