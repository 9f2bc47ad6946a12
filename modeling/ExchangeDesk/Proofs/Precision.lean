import Mathlib.Data.Nat.Find
import ExchangeDesk.Proofs.Cash
import ExchangeDesk.Proofs.Value

/-!
# As many digits as fit

A product and a quotient are the exact ones, rounded once, half to even, to as many digits of
a fraction as a decimal has room for (`Decimal.mul_rounded`, `Decimal.div_rounded`). They are
missing exactly if not even the whole part fits. What such a result keeps is said here without
the digits: an exact result that a decimal stands for is found (`Fitted.exact`), and no decimal
between an exact result and its rounding is passed over (`Fitted.le_of_le`).
-/

namespace ExchangeDesk

/-- Numbers below this round to a whole number below `mantissaBound`. -/
def roundingLimit : ℚ := mantissaBound - 1 / 2

/-- The largest number of places at which a number fits a decimal. -/
def keptPlaces (x : ℚ) : ℕ :=
  Nat.findGreatest (fun places => |x| * 10 ^ places < roundingLimit) maxScale

/-- The decimal is the number rounded to `keptPlaces` places. -/
structure Decimal.Fitted (x : ℚ) (d : Decimal) : Prop where
  fits : |x| < roundingLimit
  nearest : ∃ m : ℤ, Nearest (x * 10 ^ keptPlaces x) m ∧ d.value * 10 ^ keptPlaces x = m

/-- What an operation returns for its exact result: the decimal that is `Fitted`, or none if the
result does not fit at any scale. -/
inductive Decimal.Rounded (x : ℚ) : Option Decimal → Prop
  | fitted {d : Decimal} (h : d.Fitted x) : Rounded x (some d)
  | overflow (h : roundingLimit ≤ |x|) : Rounded x none

variable {x y : ℚ} {places : ℕ} {m : ℤ}

-- ---------------------------------------------------------------------------
-- Digits that fit
-- ---------------------------------------------------------------------------

theorem Nearest.lt_bound_iff (h : Nearest x m) : m < (mantissaBound : ℕ) ↔ x < roundingLimit := by
  have heven : Even ((mantissaBound : ℕ) : ℤ) := by decide
  rw [h.lt_even_iff heven, Int.cast_natCast, roundingLimit]

theorem Nearest.limit_le_mul_ten (h : Nearest x m) (hx : roundingLimit ≤ x * 10) :
    roundingLimit ≤ m * 10 := by
  have hbelow : (7922816251426433759354395033 : ℚ) < m := by
    have hclose := (abs_le.mp h.within).2
    norm_num [roundingLimit] at hx
    linarith
  have hbelow : (7922816251426433759354395033 : ℤ) < m := by exact_mod_cast hbelow
  have hnext : (7922816251426433759354395034 : ℚ) ≤ m := by exact_mod_cast hbelow
  norm_num [roundingLimit]
  linarith

theorem abs_withSign (hy : 0 ≤ y) (negative : Bool) : |if negative then -y else y| = y := by
  cases negative with
  | false => exact abs_of_nonneg hy
  | true => exact (abs_neg y).trans (abs_of_nonneg hy)

theorem lt_roundingLimit {n : ℕ} (h : n < mantissaBound) : (n : ℚ) < roundingLimit := by
  have hle : (n : ℚ) + 1 ≤ mantissaBound := by exact_mod_cast h
  have hhalf : (mantissaBound : ℚ) - 1 < roundingLimit := by
    rw [roundingLimit]
    exact sub_lt_sub_left (by norm_num) _
  exact (le_sub_iff_add_le.mpr hle).trans_lt hhalf

theorem Nearest.lt_roundingLimit (h : Nearest x m) (hx : x < roundingLimit) :
    (m : ℚ) < roundingLimit := by
  have hfits := h.lt_bound_iff.mpr hx
  have hle : (m : ℚ) ≤ (m.toNat : ℕ) := by exact_mod_cast Int.self_le_toNat m
  exact hle.trans_lt (ExchangeDesk.lt_roundingLimit ((Int.toNat_lt' (by decide)).mpr hfits))

theorem roundingLimit_le {n d : ℕ} (hd : 0 < d) (h : mantissaBound ≤ halfEven n d) :
    roundingLimit ≤ (n : ℚ) / d := by
  refine not_lt.mp fun hlt => ?_
  have hfits := (halfEven_nearest hd).lt_bound_iff.mpr hlt
  exact absurd h (Nat.not_le.mpr (by exact_mod_cast hfits))

theorem keptPlaces_le (x : ℚ) : keptPlaces x ≤ maxScale := Nat.findGreatest_le _

theorem fits_keptPlaces (h : |x| < roundingLimit) : |x| * 10 ^ keptPlaces x < roundingLimit :=
  Nat.findGreatest_spec (P := fun places => |x| * 10 ^ places < roundingLimit)
    (Nat.zero_le _) (by simpa using h)

theorem le_keptPlaces (hplaces : places ≤ maxScale) (h : |x| * 10 ^ places < roundingLimit) :
    places ≤ keptPlaces x :=
  Nat.le_findGreatest (P := fun places => |x| * 10 ^ places < roundingLimit) hplaces h

theorem keptPlaces_eq (hplaces : places ≤ maxScale) (hfits : |x| * 10 ^ places < roundingLimit)
    (hmost : places = maxScale ∨ roundingLimit ≤ |x| * 10 ^ (places + 1)) :
    keptPlaces x = places := by
  refine le_antisymm ?_ (le_keptPlaces hplaces hfits)
  rcases hmost with rfl | hmost
  · exact keptPlaces_le x
  · by_contra hmore
    have hfits := Nat.findGreatest_of_ne_zero (P := fun places => |x| * 10 ^ places < roundingLimit)
      (rfl : keptPlaces x = _) (by omega)
    have hpow : (10 : ℚ) ^ (places + 1) ≤ 10 ^ keptPlaces x :=
      pow_le_pow_right₀ (by norm_num) (by omega)
    have hle := mul_le_mul_of_nonneg_left hpow (abs_nonneg x)
    exact absurd hfits (not_lt.mpr (hmost.trans hle))

theorem keptPlaces_anti (hy : |y| < roundingLimit) (hle : |x| ≤ |y|) :
    keptPlaces y ≤ keptPlaces x :=
  le_keptPlaces (keptPlaces_le y) (lt_of_le_of_lt (by gcongr) (fits_keptPlaces hy))

theorem keptPlaces_neg (x : ℚ) : keptPlaces (-x) = keptPlaces x := by
  rw [keptPlaces, abs_neg, keptPlaces]

namespace Decimal

variable {a b d e : Decimal}

theorem abs_value_mul_scale (d : Decimal) : |d.value| * 10 ^ d.scale = d.mantissa := by
  rw [abs_value]
  field_simp

theorem scale_le_keptPlaces (h : |x| ≤ |d.value|) : d.scale ≤ keptPlaces x := by
  refine le_keptPlaces d.scale_le ?_
  calc |x| * 10 ^ d.scale ≤ |d.value| * 10 ^ d.scale := by gcongr
    _ = d.mantissa := d.abs_value_mul_scale
    _ < roundingLimit := lt_roundingLimit d.mantissa_lt

theorem abs_value_lt (d : Decimal) : |d.value| < roundingLimit := by
  refine lt_of_le_of_lt ?_ (lt_roundingLimit d.mantissa_lt)
  rw [← d.abs_value_mul_scale]
  exact le_mul_of_one_le_right (abs_nonneg _) (one_le_pow₀ (by norm_num))

namespace Fitted

theorem of_places (hplaces : places ≤ maxScale) (hfits : |x| * 10 ^ places < roundingLimit)
    (hmost : places = maxScale ∨ roundingLimit ≤ |x| * 10 ^ (places + 1))
    (hm : Nearest (x * 10 ^ places) m) (hd : d.value * 10 ^ places = m) : d.Fitted x := by
  have hwhole : |x| ≤ |x| * 10 ^ places :=
    le_mul_of_one_le_right (abs_nonneg x) (one_le_pow₀ (by norm_num))
  refine ⟨hwhole.trans_lt hfits, m, ?_⟩
  rw [keptPlaces_eq hplaces hfits hmost]
  exact ⟨hm, hd⟩

theorem of_value (h : d.value = x) : d.Fitted x := by
  subst h
  have hwhole := value_mul (scale_le_keptPlaces (le_refl |d.value|))
  exact ⟨d.abs_value_lt, _, hwhole ▸ .intCast _, hwhole⟩

theorem dropZeroSign (h : d.Fitted x) : d.dropZeroSign.Fitted x := by
  obtain ⟨m, hm, hd⟩ := h.nearest
  exact ⟨h.fits, m, hm, by rwa [dropZeroSign_value]⟩

theorem exact (h : d.Fitted x) (he : e.value = x) : d.value = x := by
  obtain ⟨m, hm, hd⟩ := h.nearest
  have hwhole := value_mul (scale_le_keptPlaces (he ▸ le_refl |x|))
  rw [he] at hwhole
  rw [hwhole] at hm
  rw [hm.of_intCast, ← hwhole] at hd
  exact mul_right_cancel₀ (by positivity) hd

theorem le_of_le (h : d.Fitted x) (hx : 0 ≤ x) (he : x ≤ e.value) : d.value ≤ e.value := by
  obtain ⟨m, hm, hd⟩ := h.nearest
  have hpow : (0 : ℚ) < 10 ^ keptPlaces x := by positivity
  have hwhole : e.value * 10 ^ keptPlaces x = _ :=
    value_mul (scale_le_keptPlaces (by rwa [abs_of_nonneg hx, abs_of_nonneg (hx.trans he)]))
  have hle : m ≤ e.signed * tenTo (keptPlaces x - e.scale) := by
    refine hm.le_of_le ?_
    rw [← hwhole]
    gcongr
  rw [← mul_le_mul_iff_left₀ hpow, hd, hwhole]
  exact_mod_cast hle

theorem of_magnitude {n : ℕ} {negative : Bool} (hy : 0 ≤ y) (hplaces : places ≤ maxScale)
    (hm : Nearest (y * 10 ^ places) n) (hn : n < mantissaBound)
    (hmost : places = maxScale ∨ roundingLimit ≤ y * 10 ^ (places + 1))
    (hd : d.value * 10 ^ places = if negative then -(n : ℚ) else n) :
    d.Fitted (if negative then -y else y) := by
  have habs := abs_withSign hy negative
  have hfits : y * 10 ^ places < roundingLimit := hm.lt_bound_iff.mp (by exact_mod_cast hn)
  refine of_places hplaces (by rwa [habs]) (by rwa [habs]) (m := if negative then -n else n) ?_ ?_
  · have hsigned := hm.withSign negative
    cases negative with
    | false => exact hsigned
    | true => simpa using hsigned
  · rw [hd]
    split
    · simp
    · simp

theorem nonneg (h : d.Fitted x) (hx : 0 ≤ x) : 0 ≤ d.value := by
  obtain ⟨m, hm, hd⟩ := h.nearest
  have hle : 0 ≤ m := hm.ge_of_ge (by rw [Int.cast_zero]; positivity)
  refine nonneg_of_mul_nonneg_left ?_ (by positivity : (0 : ℚ) < 10 ^ keptPlaces x)
  rw [hd]
  exact_mod_cast hle

theorem lt_limit_iff (h : d.Fitted x) (hx : 0 ≤ x) (hplaces : places ≤ maxScale) :
    d.value * 10 ^ places < roundingLimit ↔ x * 10 ^ places < roundingLimit := by
  obtain ⟨m, hm, hd⟩ := h.nearest
  have hd0 := h.nonneg hx
  have hkept : x * 10 ^ keptPlaces x < roundingLimit := by
    have hfits := fits_keptPlaces h.fits
    rwa [abs_of_nonneg hx] at hfits
  rcases Nat.lt_or_ge (keptPlaces x) places with hmore | hfew
  · -- a digit more than are kept is too many, for both
    have hlarge : roundingLimit ≤ x * 10 ^ keptPlaces x * 10 := by
      refine not_lt.mp fun hlt => Nat.not_succ_le_self (keptPlaces x) ?_
      exact le_keptPlaces (by omega) (by rwa [abs_of_nonneg hx, pow_succ, ← mul_assoc])
    have hpow : (10 : ℚ) ^ keptPlaces x * 10 ≤ 10 ^ places := by
      rw [← pow_succ]
      exact pow_le_pow_right₀ (by norm_num) hmore
    refine iff_of_false (not_lt.mpr ?_) (not_lt.mpr ?_)
    · calc roundingLimit ≤ m * 10 := hm.limit_le_mul_ten hlarge
        _ = d.value * (10 ^ keptPlaces x * 10) := by rw [← hd, mul_assoc]
        _ ≤ d.value * 10 ^ places := by gcongr
    · calc roundingLimit ≤ x * (10 ^ keptPlaces x * 10) := by rwa [← mul_assoc]
        _ ≤ x * 10 ^ places := by gcongr
  · have hpow : (10 : ℚ) ^ places ≤ 10 ^ keptPlaces x := pow_le_pow_right₀ (by norm_num) hfew
    refine iff_of_true ?_ (lt_of_le_of_lt ?_ hkept)
    · calc d.value * 10 ^ places ≤ d.value * 10 ^ keptPlaces x := by gcongr
        _ = m := hd
        _ < roundingLimit := hm.lt_roundingLimit hkept
    · gcongr

theorem neg (h : d.Fitted x) : (-d).Fitted (-x) := by
  obtain ⟨m, hm, hd⟩ := h.nearest
  refine ⟨by rw [abs_neg]; exact h.fits, -m, ?_⟩
  rw [keptPlaces_neg, value_neg, neg_mul, neg_mul, hd, Int.cast_neg]
  exact ⟨hm.neg, rfl⟩

theorem mono_of_nonneg (hd : d.Fitted x) (he : e.Fitted y) (hx : 0 ≤ x) (hle : x ≤ y) :
    d.value ≤ e.value := by
  have hy := hx.trans hle
  rcases le_or_gt x e.value with hpassed | hbetween
  · exact hd.le_of_le hx hpassed
  · -- the smaller number lies between the larger one and its rounding: one digit fits them all
    have hplaces : keptPlaces x = keptPlaces y := by
      refine le_antisymm (le_keptPlaces (keptPlaces_le x) ?_) (keptPlaces_anti he.fits ?_)
      · rw [abs_of_nonneg hy, ← he.lt_limit_iff hy (keptPlaces_le x)]
        have hfits := fits_keptPlaces hd.fits
        rw [abs_of_nonneg hx] at hfits
        exact lt_of_le_of_lt (by gcongr) hfits
      · rwa [abs_of_nonneg hx, abs_of_nonneg hy]
    obtain ⟨m, hm, hdm⟩ := hd.nearest
    obtain ⟨k, hk, hek⟩ := he.nearest
    rw [hplaces] at hm hdm
    have hmk : m ≤ k := hm.mono hk (by gcongr)
    rw [← mul_le_mul_iff_left₀ (by positivity : (0 : ℚ) < 10 ^ keptPlaces y), hdm, hek]
    exact_mod_cast hmk

theorem mono (hd : d.Fitted x) (he : e.Fitted y) (hle : x ≤ y) : d.value ≤ e.value := by
  rcases le_total 0 x with hx | hx
  · exact hd.mono_of_nonneg he hx hle
  · have hd0 : 0 ≤ -d.value := by
      rw [← value_neg]
      exact hd.neg.nonneg (by linarith)
    rcases le_total 0 y with hy | hy
    · linarith [he.nonneg hy]
    · have hneg := he.neg.mono_of_nonneg hd.neg (by linarith) (by linarith)
      rw [value_neg, value_neg] at hneg
      linarith

theorem of_whole (h : d.Fitted x) (hx : ∃ k : ℤ, x = k) : d.value = x := by
  obtain ⟨k, rfl⟩ := hx
  obtain ⟨m, hm, hd⟩ := h.nearest
  have hwhole : (k : ℚ) * 10 ^ keptPlaces k = ((k * 10 ^ keptPlaces k : ℤ) : ℚ) := by push_cast; rfl
  rw [hwhole] at hm
  rw [hm.of_intCast, ← hwhole] at hd
  exact mul_right_cancel₀ (by positivity) hd

end Fitted

namespace Rounded

variable {o : Option Decimal}

theorem fitted_of_some (h : Rounded x (some d)) : d.Fitted x := by
  cases h with
  | fitted h => exact h

theorem exists_of_lt (h : Rounded x o) (hx : |x| < roundingLimit) :
    ∃ d, o = some d ∧ d.Fitted x := by
  cases h with
  | fitted h => exact ⟨_, rfl, h⟩
  | overflow hlarge => exact absurd hx (not_lt.mpr hlarge)

theorem map_dropZeroSign (h : Rounded x o) : Rounded x (o.map Decimal.dropZeroSign) := by
  cases h with
  | fitted h => exact .fitted h.dropZeroSign
  | overflow h => exact .overflow h

end Rounded

-- ---------------------------------------------------------------------------
-- Products
-- ---------------------------------------------------------------------------

theorem excessDigits_spec (n : ℕ) : n / tenTo (excessDigits n) < mantissaBound ∧
    (excessDigits n = 0 ∨ mantissaBound ≤ n / tenTo (excessDigits n - 1)) := by
  induction n using excessDigits.induct with
  | case1 n h => simp [excessDigits, h]
  | case2 n h ih =>
    rw [excessDigits, if_neg h, tenTo_succ, Nat.mul_comm, ← Nat.div_div_eq_div_mul,
      Nat.add_sub_cancel]
    refine ⟨ih.1, .inr ?_⟩
    rcases ih.2 with hzero | hlong
    · rw [hzero, tenTo_zero, Nat.div_one]
      exact Nat.le_of_not_lt h
    · generalize excessDigits (n / 10) = more at hlong
      cases more with
      | zero => simpa using Nat.le_of_not_lt h
      | succ more =>
        rwa [Nat.add_sub_cancel, Nat.div_div_eq_div_mul, Nat.mul_comm, ← tenTo_succ] at hlong

theorem fit_eq (negative : Bool) (n scale : ℕ) : ∃ dropped, scale - maxScale ≤ dropped ∧
    halfEven n (tenTo dropped) < mantissaBound ∧
    (dropped = scale - maxScale ∨ 0 < dropped ∧
      mantissaBound ≤ halfEven n (tenTo (dropped - 1))) ∧
    fit negative n scale =
      if dropped ≤ scale then ofParts? negative (halfEven n (tenTo dropped)) (scale - dropped)
      else none := by
  have hten := ten_lt_mantissaBound
  have hleast : scale - maxScale ≤ max (excessDigits n) (scale - maxScale) := Nat.le_max_right _ _
  have hfits : n / tenTo (max (excessDigits n) (scale - maxScale)) < mantissaBound :=
    Nat.lt_of_le_of_lt
      (Nat.div_le_div_left (tenTo_le (Nat.le_max_left _ _)) (tenTo_pos _)) (excessDigits_spec n).1
  by_cases hround : halfEven n (tenTo (max (excessDigits n) (scale - maxScale))) < mantissaBound
  · refine ⟨_, hleast, hround, ?_, by simp only [fit, if_pos hround]⟩
    rcases (excessDigits_spec n).2 with hzero | hlong
    · exact .inl (by omega)
    · rcases Nat.le_total (excessDigits n) (scale - maxScale) with hle | hle
      · exact .inl (Nat.max_eq_right hle)
      · rw [Nat.max_eq_left hle]
        by_cases hzero : excessDigits n = 0
        · exact .inl (by omega)
        · exact .inr ⟨Nat.pos_of_ne_zero hzero, hlong.trans (div_le_halfEven _ _)⟩
  · -- rounded up to a digit more, which costs another one
    refine ⟨_, Nat.le_succ_of_le hleast, ?_, .inr ⟨Nat.succ_pos _, Nat.le_of_not_lt hround⟩,
      by simp only [fit, if_neg hround]⟩
    generalize max (excessDigits n) (scale - maxScale) = least at hfits ⊢
    have hshorter : n / tenTo (least + 1) = n / tenTo least / 10 := by
      rw [tenTo_succ, Nat.div_div_eq_div_mul]
    show halfEven n (tenTo (least + 1)) < mantissaBound
    rcases halfEven_eq n (tenTo (least + 1)) with heq | heq
    · omega
    · omega

theorem scaled_div (n : ℕ) {k scale : ℕ} (h : k ≤ scale) :
    (n : ℚ) / 10 ^ scale * 10 ^ (scale - k) = n / tenTo k := by
  have hsplit : (10 : ℚ) ^ scale = 10 ^ k * 10 ^ (scale - k) := by
    rw [← pow_add, Nat.add_sub_cancel' h]
  rw [hsplit, tenTo_cast]
  field_simp

theorem ofParts?_value {negative : Bool} {n k : ℕ} (h : ofParts? negative n k = some d) :
    d.value * 10 ^ k = if negative then -(n : ℚ) else n := by
  obtain ⟨hn, hm, hs⟩ := ofParts?_some h
  rw [← hs, value_mul_scale, signed, hn, hm]
  push_cast
  rfl

theorem fit_rounded (negative : Bool) (n scale : ℕ) :
    Rounded (if negative then -((n : ℚ) / 10 ^ scale) else n / 10 ^ scale)
      (fit negative n scale) := by
  obtain ⟨dropped, hleast, hfits, hfewest, hfit⟩ := fit_eq negative n scale
  have hy : 0 ≤ (n : ℚ) / 10 ^ scale := by positivity
  rw [hfit]
  by_cases hle : dropped ≤ scale
  · obtain ⟨q, hq⟩ : ∃ q, ofParts? negative _ (scale - dropped) = some q :=
      Option.isSome_iff_exists.mp (ofParts?_isSome hfits (by omega))
    have hvalue := ofParts?_value hq
    rw [if_pos hle, hq]
    refine .fitted ?_
    have hnearest := halfEven_nearest (n := n) (tenTo_pos dropped)
    rw [← scaled_div n hle] at hnearest
    rcases hfewest with hall | ⟨hpos, hlong⟩
    · by_cases hdigits : scale ≤ maxScale
      · -- nothing is dropped
        obtain rfl : dropped = 0 := by omega
        refine .of_value ?_
        rw [tenTo_zero, halfEven_one, Nat.sub_zero] at hvalue
        rw [eq_div_of_mul_eq (by positivity) hvalue, ite_div, neg_div]
      · exact .of_magnitude hy (by omega) hnearest hfits (.inl (by omega)) hvalue
    · refine .of_magnitude hy (by omega) hnearest hfits (.inr ?_) hvalue
      have hmore := roundingLimit_le (tenTo_pos _) hlong
      rwa [← scaled_div n (by omega : dropped - 1 ≤ scale),
        show scale - (dropped - 1) = scale - dropped + 1 by omega] at hmore
  · rw [if_neg hle]
    refine .overflow ?_
    obtain ⟨hpos, hlong⟩ : 0 < dropped ∧ mantissaBound ≤ halfEven n (tenTo (dropped - 1)) := by
      refine hfewest.resolve_left ?_
      omega
    have hpow : (10 : ℚ) ^ scale ≤ 10 ^ (dropped - 1) :=
      pow_le_pow_right₀ (by norm_num) (by omega)
    rw [abs_withSign hy]
    refine (roundingLimit_le (tenTo_pos _) hlong).trans ?_
    rw [tenTo_cast]
    gcongr

theorem value_eq_withSign (d : Decimal) :
    d.value = if d.negative then -((d.mantissa : ℚ) / 10 ^ d.scale) else d.mantissa / 10 ^ d.scale := by
  rw [value_eq, signed]
  split
  · push_cast
    ring
  · push_cast
    ring

theorem value_mul_value (a b : Decimal) : a.value * b.value =
    if a.negative != b.negative then
      -(((a.mantissa * b.mantissa : ℕ) : ℚ) / 10 ^ (a.scale + b.scale))
    else ((a.mantissa * b.mantissa : ℕ) : ℚ) / 10 ^ (a.scale + b.scale) := by
  have hsplit : ((a.mantissa * b.mantissa : ℕ) : ℚ) / 10 ^ (a.scale + b.scale) =
      a.mantissa / 10 ^ a.scale * (b.mantissa / 10 ^ b.scale) := by
    rw [pow_add, Nat.cast_mul, mul_div_mul_comm]
  rw [hsplit, a.value_eq_withSign, b.value_eq_withSign]
  cases a.negative <;> cases b.negative <;> simp

theorem abs_value_mul (a b : Decimal) : |a.value * b.value| =
    ((a.mantissa * b.mantissa : ℕ) : ℚ) / 10 ^ (a.scale + b.scale) := by
  rw [value_mul_value]
  exact abs_withSign (by positivity) _

theorem value_of_mantissa (h : d.mantissa = 0) : d.value = 0 := by
  simp [value_eq_withSign, h]

theorem fitted_zero (h : 2 * |x| * 10 ^ maxScale ≤ 1) : zero.Fitted x := by
  have hhalf : |x| * 10 ^ maxScale ≤ 1 / 2 := by
    rwa [le_div_iff₀' two_pos, ← mul_assoc]
  have hlimit : (1 : ℚ) / 2 < roundingLimit := by norm_num [roundingLimit]
  refine .of_places le_rfl (hhalf.trans_lt hlimit) (.inl rfl) (m := 0) ?_ ?_
  · rw [nearest_iff, Int.cast_zero, sub_zero, abs_mul, abs_of_pos (by positivity : (0 : ℚ) < 10 ^ _)]
    exact ⟨hhalf, fun _ => Even.zero⟩
  · rw [value_of_mantissa rfl, zero_mul, Int.cast_zero]

theorem mul_rounded (a b : Decimal) : Rounded (a.value * b.value) (a.mul b) := by
  have hfit := fit_rounded (a.negative != b.negative) (a.mantissa * b.mantissa) (a.scale + b.scale)
  rw [← value_mul_value] at hfit
  unfold mul
  extract_lets product
  split
  · next hzero =>
    have hproduct : a.value * b.value = 0 := by
      rcases hzero with ha | hb
      · rw [value_of_mantissa ha, zero_mul]
      · rw [value_of_mantissa hb, mul_zero]
    exact .fitted (.of_value ((value_of_mantissa rfl).trans hproduct.symm))
  · split
    · next hshort =>
      split
      · next hscale =>
        obtain ⟨ha, hb⟩ := Bool.and_eq_true_iff.mp hshort
        have hlost : 2 * (a.mantissa * b.mantissa) * tenTo maxScale ≤ tenTo (a.scale + b.scale) :=
          lostInProduct_short ha hb hscale
        refine .fitted (fitted_zero ?_)
        rw [abs_value_mul, ← mul_div_assoc, div_mul_eq_mul_div, div_le_one (by positivity),
          ← tenTo_cast, ← tenTo_cast]
        exact_mod_cast hlost
      · exact hfit.map_dropZeroSign
    · exact hfit

-- ---------------------------------------------------------------------------
-- Quotients
-- ---------------------------------------------------------------------------

theorem value_div_value (hb : b.mantissa ≠ 0) : a.value / b.value =
    if a.negative != b.negative then
      -(((a.mantissa * tenTo b.scale : ℕ) : ℚ) / (b.mantissa * tenTo a.scale : ℕ))
    else ((a.mantissa * tenTo b.scale : ℕ) : ℚ) / (b.mantissa * tenTo a.scale : ℕ) := by
  have hb : (b.mantissa : ℚ) ≠ 0 := by exact_mod_cast hb
  have hsplit : ((a.mantissa * tenTo b.scale : ℕ) : ℚ) / (b.mantissa * tenTo a.scale : ℕ) =
      a.mantissa / 10 ^ a.scale / (b.mantissa / 10 ^ b.scale) := by
    push_cast
    field_simp
  rw [hsplit, a.value_eq_withSign, b.value_eq_withSign]
  cases a.negative <;> cases b.negative <;> simp [neg_div, div_neg]

theorem quotientScale_greatest {n d limit k : ℕ} (h : quotientScale n d limit = some k) :
    k ≤ limit ∧ n * tenTo k / d < mantissaBound ∧
      (k = limit ∨ mantissaBound ≤ n * tenTo (k + 1) / d) := by
  induction limit with
  | zero =>
    rw [quotientScale] at h
    split at h
    · next hfits =>
      cases h
      exact ⟨le_rfl, by simpa using hfits, .inl rfl⟩
    · cases h
  | succ limit ih =>
    rw [quotientScale] at h
    split at h
    · next hfits =>
      cases h
      exact ⟨le_rfl, hfits, .inl rfl⟩
    · next hlong =>
      obtain ⟨hle, hfits, hmost⟩ := ih h
      refine ⟨Nat.le_succ_of_le hle, hfits, .inr ?_⟩
      rcases hmost with rfl | hmost
      · exact Nat.le_of_not_lt hlong
      · exact hmost

theorem quotientScale_none {n d limit : ℕ} (h : quotientScale n d limit = none) :
    mantissaBound ≤ n / d := by
  refine Nat.le_of_not_lt fun hfits => ?_
  obtain ⟨k, hk, -⟩ := quotientScale_isSome hfits limit
  rw [h] at hk
  cases hk

theorem trimZeros_fitted {negative : Bool} {n d k : ℕ} (hd : 0 < d) (hk : k ≤ maxScale)
    (hfits : halfEven (n * tenTo k) d < mantissaBound)
    (hmost : k = maxScale ∨ mantissaBound ≤ halfEven (n * tenTo (k + 1)) d) :
    Rounded (if negative then -((n : ℚ) / d) else n / d)
      (trimZeros negative (halfEven (n * tenTo k) d) k) := by
  have hscaled (k : ℕ) : (n : ℚ) / d * 10 ^ k = (n * tenTo k : ℕ) / d := by
    push_cast
    ring
  obtain ⟨q, hq⟩ : ∃ q, trimZeros negative _ k = some q :=
    Option.isSome_iff_exists.mp (trimZeros_isSome hfits hk)
  obtain ⟨hn, hs, hm⟩ := trimZeros_some hq
  rw [hq]
  refine .fitted (.of_magnitude (by positivity) hk ?_ hfits ?_ ?_)
  · rw [hscaled]
    exact halfEven_nearest hd
  · refine hmost.imp_right fun hlong => ?_
    rw [hscaled]
    exact roundingLimit_le hd hlong
  · rw [value_mul hs, signed, hn, ← hm]
    push_cast
    split
    · ring
    · rfl

theorem fitQuotient_rounded (negative : Bool) {n d : ℕ} (hd : 0 < d) :
    Rounded (if negative then -((n : ℚ) / d) else n / d) (fitQuotient negative n d) := by
  have hten := ten_lt_mantissaBound
  have hoverflow (hlong : mantissaBound ≤ halfEven n d) :
      roundingLimit ≤ |if negative then -((n : ℚ) / d) else n / d| := by
    rw [abs_withSign (by positivity)]
    exact roundingLimit_le hd hlong
  unfold fitQuotient
  cases hscale : quotientScale n d maxScale with
  | none => exact .overflow (hoverflow ((quotientScale_none hscale).trans (div_le_halfEven n d)))
  | some k =>
    obtain ⟨hk, hwhole, hmost⟩ := quotientScale_greatest hscale
    rw [Option.bind_some]
    by_cases hround : halfEven (n * tenTo k) d < mantissaBound
    · simp only [quotientAt, if_pos hround]
      exact trimZeros_fitted hd hk hround
        (hmost.imp_right fun hlong => hlong.trans (div_le_halfEven _ _))
    · simp only [quotientAt, if_neg hround]
      cases k with
      | zero =>
        refine .overflow (hoverflow ?_)
        simpa using hround
      | succ shorter =>
        exact trimZeros_fitted hd (by omega) (halfEven_shorter hwhole)
          (.inr (Nat.le_of_not_lt hround))

theorem exact_quotient (hb : b.mantissa ≠ 0) (hdvd : b.mantissa ∣ a.mantissa) :
    ((a.mantissa * tenTo b.scale : ℕ) : ℚ) / (b.mantissa * tenTo a.scale : ℕ) =
      ((a.mantissa / b.mantissa * tenTo (b.scale - a.scale) : ℕ) : ℚ) /
        10 ^ (a.scale - b.scale) := by
  obtain ⟨k, hk⟩ := hdvd
  have hpow : (10 : ℚ) ^ b.scale * 10 ^ (a.scale - b.scale) =
      10 ^ (b.scale - a.scale) * 10 ^ a.scale := by
    rw [← pow_add, ← pow_add]
    congr 1
    omega
  have hpos : 0 < b.mantissa * tenTo a.scale := Nat.mul_pos (Nat.pos_of_ne_zero hb) (tenTo_pos _)
  rw [div_eq_div_iff (by exact_mod_cast hpos.ne') (by positivity), hk,
    Nat.mul_div_cancel_left k (Nat.pos_of_ne_zero hb)]
  push_cast
  calc (b.mantissa : ℚ) * k * 10 ^ b.scale * 10 ^ (a.scale - b.scale)
      = b.mantissa * k * (10 ^ b.scale * 10 ^ (a.scale - b.scale)) := by ring
    _ = b.mantissa * k * (10 ^ (b.scale - a.scale) * 10 ^ a.scale) := by rw [hpow]
    _ = k * 10 ^ (b.scale - a.scale) * (b.mantissa * 10 ^ a.scale) := by ring

theorem div_rounded (a : Decimal) (hb : b.mantissa ≠ 0) :
    Rounded (a.value / b.value) (a.div b) := by
  have hd : 0 < b.mantissa * tenTo a.scale := Nat.mul_pos (Nat.pos_of_ne_zero hb) (tenTo_pos _)
  unfold div
  extract_lets negative
  rw [if_neg hb]
  split
  · next hzero =>
    have hquotient : a.value / b.value = 0 := by rw [value_of_mantissa hzero, zero_div]
    exact .fitted (.of_value ((value_of_mantissa rfl).trans hquotient.symm))
  · split
    · next hmod =>
      have hexact := exact_quotient hb (Nat.dvd_of_mod_eq_zero hmod)
      rw [value_div_value hb, hexact]
      by_cases hfits : a.mantissa / b.mantissa * tenTo (b.scale - a.scale) < mantissaBound
      · have hscale := Nat.le_trans (Nat.sub_le a.scale b.scale) a.scale_le
        obtain ⟨q, hq⟩ : ∃ q, ofParts? (a.negative != b.negative) _ (a.scale - b.scale) = some q :=
          Option.isSome_iff_exists.mp (ofParts?_isSome hfits hscale)
        obtain ⟨hn, hm, hs⟩ := ofParts?_some hq
        rw [hq]
        refine .fitted (.of_value ?_)
        rw [value_eq_withSign, hn, hm, hs]
      · -- a quotient of mantissas that is multiplied has no fraction
        have hzeros : a.scale ≤ b.scale := by
          by_contra hdigits
          rw [Nat.sub_eq_zero_of_le (by omega), tenTo_zero, Nat.mul_one] at hfits
          exact hfits (Nat.lt_of_le_of_lt (Nat.div_le_self _ _) a.mantissa_lt)
        rw [ofParts?, dif_neg fun h => hfits h.1]
        refine .overflow ?_
        rw [abs_withSign (by positivity), Nat.sub_eq_zero_of_le hzeros, pow_zero, ← Nat.cast_one]
        exact roundingLimit_le one_pos (by simpa using hfits)
    · rw [value_div_value hb]
      exact (fitQuotient_rounded negative hd).map_dropZeroSign

end Decimal
end ExchangeDesk
