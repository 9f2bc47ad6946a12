import Mathlib.Algebra.Order.Round
import Mathlib.Data.Rat.Floor
import Mathlib.Tactic.FieldSimp
import Mathlib.Tactic.Linarith
import Mathlib.Tactic.Ring
import ExchangeDesk.Rounding

/-!
# Nearest whole numbers

`Nearest` says which whole number a rational is rounded to, without a quotient and a
remainder; `halfEven` finds it (`halfEven_nearest`). Rounding is monotone and keeps whole
numbers. Rounding a second time, to fewer digits, gives what rounding once would have given,
unless the first time ends half way between two of the coarser numbers
(`Nearest.coarser_iff`).
-/

namespace ExchangeDesk

/-- No whole number is nearer, and of two that are equally near it is the even one. -/
structure Nearest (x : ℚ) (m : ℤ) : Prop where
  nearest : ∀ k : ℤ, |x - m| ≤ |x - k|
  even : ∀ k : ℤ, k ≠ m → |x - k| = |x - m| → Even m

variable {x y : ℚ} {k m : ℤ}

-- ---------------------------------------------------------------------------
-- Distances
-- ---------------------------------------------------------------------------

theorem one_le_abs_sub (h : k ≠ m) : 1 ≤ |(k : ℚ) - m| := by
  exact_mod_cast Int.one_le_abs (sub_ne_zero.mpr h)

theorem nearest_iff : Nearest x m ↔ |x - m| ≤ 1 / 2 ∧ (|x - m| = 1 / 2 → Even m) := by
  constructor
  · intro h
    refine ⟨(h.nearest (round x)).trans (abs_sub_round x), fun hhalf => ?_⟩
    -- the other neighbour is as far away
    rcases (abs_eq (by norm_num)).mp hhalf with hup | hdown
    · refine h.even (m + 1) (by omega) ?_
      rw [hhalf, show x - ((m + 1 : ℤ) : ℚ) = -(1 / 2) by push_cast; linarith]
      norm_num
    · refine h.even (m - 1) (by omega) ?_
      rw [hhalf, show x - ((m - 1 : ℤ) : ℚ) = 1 / 2 by push_cast; linarith]
      norm_num
  · rintro ⟨hle, heven⟩
    have hother (k : ℤ) (hk : k ≠ m) : 1 / 2 ≤ |x - k| := by
      have hone := one_le_abs_sub hk
      have htriangle := abs_sub_le (k : ℚ) x m
      rw [abs_sub_comm (k : ℚ) x] at htriangle
      linarith
    refine ⟨fun k => ?_, fun k hk heq => heven ?_⟩
    · by_cases hk : k = m
      · rw [hk]
      · exact hle.trans (hother k hk)
    · exact le_antisymm hle (heq ▸ hother k hk)

namespace Nearest

theorem within (h : Nearest x m) : |x - m| ≤ 1 / 2 := (nearest_iff.mp h).1

theorem of_lt (h : |x - m| < 1 / 2) : Nearest x m :=
  nearest_iff.mpr ⟨h.le, fun hhalf => absurd hhalf h.ne⟩

theorem neg (h : Nearest x m) : Nearest (-x) (-m) := by
  obtain ⟨hle, heven⟩ := nearest_iff.mp h
  have hsame : |-x - ((-m : ℤ) : ℚ)| = |x - m| := by
    rw [show -x - ((-m : ℤ) : ℚ) = -(x - m) by push_cast; ring, abs_neg]
  rw [nearest_iff, hsame]
  exact ⟨hle, fun hhalf => (heven hhalf).neg⟩

theorem withSign (h : Nearest x m) (negative : Bool) :
    Nearest (if negative then -x else x) (if negative then -m else m) := by
  cases negative with
  | false => exact h
  | true => exact h.neg

theorem intCast (k : ℤ) : Nearest (k : ℚ) k := of_lt (by norm_num)

theorem le_of_le (h : Nearest x m) (hx : x ≤ k) : m ≤ k := by
  by_contra hk
  have hnext : ((k + 1 : ℤ) : ℚ) ≤ m := by exact_mod_cast Int.not_le.mp hk
  have hle := (abs_le.mp h.within).1
  push_cast at hnext
  linarith

theorem ge_of_ge (h : Nearest x m) (hx : (k : ℚ) ≤ x) : k ≤ m := by
  have hneg : -m ≤ -k := h.neg.le_of_le (by push_cast; linarith)
  omega

theorem of_intCast (h : Nearest (k : ℚ) m) : m = k :=
  le_antisymm (h.le_of_le le_rfl) (h.ge_of_ge le_rfl)

theorem mono (h : Nearest x m) (h' : Nearest y k) (hle : x ≤ y) : m ≤ k := by
  obtain ⟨hm, hmeven⟩ := nearest_iff.mp h
  obtain ⟨hk, hkeven⟩ := nearest_iff.mp h'
  have hlow := (abs_le.mp hm).1
  have hhigh := (abs_le.mp hk).2
  by_contra hlt
  have hnext : (k : ℚ) + 1 ≤ m := by exact_mod_cast Int.not_le.mp hlt
  -- there is room only for one middle, between two whole numbers that are both even
  have hmiddle : x - m = -(1 / 2) := by linarith
  have hmiddle' : y - k = 1 / 2 := by linarith
  have hsucc : m = k + 1 := by
    have hcast : (m : ℚ) = k + 1 := by linarith
    exact_mod_cast hcast
  have hodd : Even (k + 1) := hsucc ▸ hmeven (by rw [hmiddle]; norm_num)
  exact Int.not_even_iff_odd.mpr (hkeven (by rw [hmiddle']; norm_num)).add_one hodd

theorem unique (h : Nearest x m) (h' : Nearest x k) : m = k :=
  le_antisymm (h.mono h' le_rfl) (h'.mono h le_rfl)

theorem lt_even_iff (h : Nearest x m) (hk : Even k) : m < k ↔ x < k - 1 / 2 := by
  obtain ⟨hle, heven⟩ := nearest_iff.mp h
  have hbounds := abs_le.mp hle
  constructor
  · intro hlt
    have hnext : (m : ℚ) + 1 ≤ k := by exact_mod_cast hlt
    refine lt_of_le_of_ne (by linarith) fun heq => ?_
    have hm : m = k - 1 := by
      have hge : (k : ℚ) ≤ m + 1 := by linarith
      have hge : k ≤ m + 1 := by exact_mod_cast hge
      omega
    have hhalf : |x - m| = 1 / 2 := by
      rw [heq, hm]
      push_cast
      norm_num
    have hodd : ¬ Even m := by
      rw [hm, Int.not_even_iff_odd]
      exact hk.sub_odd odd_one
    exact hodd (heven hhalf)
  · intro hlt
    by_contra hge
    have hge : (k : ℚ) ≤ m := by exact_mod_cast Int.not_lt.mp hge
    linarith

end Nearest

theorem halfEven_nearest {n d : ℕ} (hd : 0 < d) : Nearest ((n : ℚ) / d) (halfEven n d : ℕ) := by
  have hpos : (0 : ℚ) < d := by exact_mod_cast hd
  generalize hq : n / d = q
  generalize hrest : ((n % d : ℕ) : ℚ) / d = r
  have hquotient : (n : ℚ) / d = q + r := by
    have hsum : (n : ℚ) = d * (n / d : ℕ) + (n % d : ℕ) := by
      exact_mod_cast (Nat.div_add_mod n d).symm
    rw [hsum, ← hrest, hq]
    field_simp
  have hr : 0 ≤ r ∧ r < 1 := by
    rw [← hrest, div_lt_one hpos]
    exact ⟨by positivity, by exact_mod_cast Nat.mod_lt n hd⟩
  have hbelow : 2 * (n % d) < d ↔ r < 1 / 2 := by
    rw [← hrest, div_lt_div_iff₀ hpos two_pos]
    norm_cast
    omega
  have htie : 2 * (n % d) = d ↔ r = 1 / 2 := by
    rw [← hrest, div_eq_div_iff hpos.ne' two_ne_zero]
    norm_cast
    omega
  simp only [hquotient, halfEven, hbelow, htie, hq]
  split
  · next hdown =>
    rw [nearest_iff, show (q : ℚ) + r - ((q : ℕ) : ℤ) = r by push_cast; ring, abs_of_nonneg hr.1]
    rcases hdown with hlt | ⟨heq, heven⟩
    · exact ⟨hlt.le, fun hhalf => absurd hhalf hlt.ne⟩
    · exact ⟨heq.le, fun _ => by exact_mod_cast Nat.even_iff.mpr heven⟩
  · next hup =>
    have hdistance : (q : ℚ) + r - ((q + 1 : ℕ) : ℤ) = -(1 - r) := by push_cast; ring
    rw [nearest_iff, hdistance, abs_neg, abs_of_pos (by linarith [hr.2])]
    obtain ⟨hge, hodd⟩ := not_or.mp hup
    refine ⟨by linarith, fun hhalf => ?_⟩
    have hodd : q % 2 ≠ 0 := fun heven => hodd ⟨by linarith, heven⟩
    exact_mod_cast Nat.even_iff.mpr (by omega : (q + 1) % 2 = 0)

-- ---------------------------------------------------------------------------
-- Rounding twice
-- ---------------------------------------------------------------------------

/-- `kept` is half way between two whole numbers, and the even one, to which it is rounded, lies on
the other side of it than `x`. -/
def Astray (x kept : ℚ) : Prop :=
  ∃ j : ℤ, kept = j + 1 / 2 ∧ (Even j ∧ kept < x ∨ Odd j ∧ x < kept)

theorem astray_middle {j : ℤ} :
    Astray x (j + 1 / 2) ↔ Even j ∧ j + 1 / 2 < x ∨ Odd j ∧ x < j + 1 / 2 := by
  constructor
  · rintro ⟨i, hi, h⟩
    have hij : i = j := by exact_mod_cast (add_right_cancel hi).symm
    rwa [hij] at h
  · exact fun h => ⟨j, rfl, h⟩

/-- A number closer than half a unit to a middle is rounded as the middle is, unless the middle is
`Astray`. -/
theorem Nearest.beside_middle {j t : ℤ} (hclose : |x - (j + 1 / 2)| < 1 / 2)
    (ht : Nearest (j + 1 / 2) t) : Nearest x t ↔ ¬ Astray x (j + 1 / 2) := by
  obtain ⟨hlow, hhigh⟩ := abs_lt.mp hclose
  have hfrom : j ≤ t := ht.ge_of_ge (by linarith)
  have hto : t ≤ j + 1 := ht.le_of_le (by push_cast; linarith)
  have heven : Even t := by
    refine (nearest_iff.mp ht).2 ?_
    rcases (by omega : t = j ∨ t = j + 1) with rfl | rfl
    · norm_num
    · rw [show (j : ℚ) + 1 / 2 - ((j + 1 : ℤ) : ℚ) = -(1 / 2) by push_cast; ring]
      norm_num
  rw [astray_middle, nearest_iff, abs_le]
  rcases Int.even_or_odd j with hj | hj
  · -- the middle goes down
    obtain rfl : t = j := by
      by_contra hne
      have hup : t = j + 1 := by omega
      exact Int.not_even_iff_odd.mpr hj.add_one (hup ▸ heven)
    have hodd : ¬ Odd t := Int.not_odd_iff_even.mpr hj
    simp only [hj, hodd, true_and, false_and, or_false, not_lt, imp_true_iff, and_true]
    exact ⟨fun h => by linarith [h.2], fun h => ⟨by linarith, by linarith⟩⟩
  · -- the middle goes up
    obtain rfl : t = j + 1 := by
      by_contra hne
      have hdown : t = j := by omega
      exact Int.not_even_iff_odd.mpr hj (hdown ▸ heven)
    have hnot : ¬ Even j := Int.not_even_iff_odd.mpr hj
    simp only [hj, hnot, heven, true_and, false_and, false_or, not_lt, imp_true_iff, and_true]
    push_cast
    exact ⟨fun h => by linarith [h.1], fun h => ⟨by linarith, by linarith⟩⟩

theorem within_of_not_middle {c : ℕ} {t : ℤ} (hc : 0 < c)
    (ht : |(m : ℚ) / (2 * c : ℕ) - t| < 1 / 2) :
    |(m : ℚ) / (2 * c : ℕ) - t| ≤ 1 / 2 - 1 / (2 * c : ℕ) := by
  have hstep : (0 : ℚ) < (2 * c : ℕ) := by exact_mod_cast Nat.mul_pos two_pos hc
  have hscaled : (m : ℚ) / (2 * c : ℕ) - t = ((m - t * (2 * c : ℕ) : ℤ) : ℚ) / (2 * c : ℕ) := by
    push_cast
    field_simp
  rw [hscaled, abs_div, abs_of_pos hstep, div_lt_iff₀ hstep] at ht
  have hlt : |m - t * (2 * c : ℕ)| < c := by
    have hhalf : (1 : ℚ) / 2 * (2 * c : ℕ) = c := by push_cast; ring
    rw [hhalf] at ht
    exact_mod_cast ht
  have hle : ((|m - t * (2 * c : ℕ)| : ℤ) : ℚ) ≤ c - 1 := by
    exact_mod_cast Int.le_sub_one_of_lt hlt
  rw [hscaled, abs_div, abs_of_pos hstep, div_le_iff₀ hstep, ← Int.cast_abs]
  refine hle.trans (le_of_eq ?_)
  push_cast
  field_simp

variable {step : ℕ} {t : ℤ}

theorem Nearest.close (hpos : 0 < step) (hm : Nearest (x * step) m) :
    |x - m / step| ≤ 1 / 2 / step := by
  have hstep : (0 : ℚ) < step := by exact_mod_cast hpos
  have hscaled : x * step - m = (x - m / step) * step := by field_simp
  have hle := hm.within
  rwa [hscaled, abs_mul, abs_of_pos hstep, ← le_div_iff₀ hstep] at hle

/-- The multiple by the nearest count is at most half a multiple away. -/
theorem Nearest.within_multiple {n : ℕ} {k : ℤ} (hn : 0 < n) (h : Nearest (x / n) k) :
    |x - k * n| ≤ n / 2 := by
  have hn : (0 : ℚ) < n := by exact_mod_cast hn
  have hscaled : x - k * n = (x / n - k) * n := by field_simp
  rw [hscaled, abs_mul, abs_of_pos hn]
  calc |x / n - k| * n ≤ 1 / 2 * n := by
        gcongr
        exact h.within
    _ = n / 2 := by ring

theorem Nearest.coarser (hpos : 0 < step) (hstep : step = 1 ∨ Even step)
    (hm : Nearest (x * step) m) (ht : Nearest ((m : ℚ) / step) t)
    (hmiddle : ∀ j : ℤ, (m : ℚ) / step ≠ j + 1 / 2) : Nearest x t := by
  have hclose := hm.close hpos
  rcases hstep with rfl | ⟨c, rfl⟩
  · rw [Nat.cast_one, div_one] at ht
    rw [Nat.cast_one, mul_one] at hm
    rwa [ht.of_intCast]
  · rw [← two_mul] at *
    have hstrict : |(m : ℚ) / (2 * c : ℕ) - t| < 1 / 2 := by
      refine lt_of_le_of_ne ht.within fun hhalf => ?_
      rcases (abs_eq (by norm_num)).mp hhalf with hup | hdown
      · exact hmiddle t (by linarith)
      · exact hmiddle (t - 1) (by rw [Int.cast_sub, Int.cast_one]; linarith)
    -- half a step is less than the step that there is left up to the middle
    have hkept := within_of_not_middle (by omega) hstrict
    have htriangle := abs_sub_le x (m / (2 * c : ℕ)) t
    have hhalf : (1 : ℚ) / 2 / (2 * c : ℕ) < 1 / (2 * c : ℕ) :=
      div_lt_div_of_pos_right (by norm_num) (by exact_mod_cast hpos)
    exact of_lt (by linarith)

/-- Rounding to a finer grid first changes the result exactly if that leads to a middle on the wrong
side (`Astray`). -/
theorem Nearest.coarser_iff (hpos : 0 < step) (hstep : step = 1 ∨ Even step)
    (hm : Nearest (x * step) m) (ht : Nearest ((m : ℚ) / step) t) :
    Nearest x t ↔ ¬ Astray x (m / step) := by
  by_cases hmiddle : ∃ j : ℤ, (m : ℚ) / step = j + 1 / 2
  · obtain ⟨j, hj⟩ := hmiddle
    have hfiner : step ≠ 1 := by
      rintro rfl
      rw [Nat.cast_one, div_one] at hj
      have hdouble : (2 * m : ℚ) = 2 * j + 1 := by linarith
      have hdouble : 2 * m = 2 * j + 1 := by exact_mod_cast hdouble
      omega
    have hfiner : (1 : ℚ) < step := by exact_mod_cast (by omega : 1 < step)
    have hclose := hm.close hpos
    rw [hj] at hclose ht ⊢
    refine ht.beside_middle (hclose.trans_lt ?_)
    rw [div_lt_iff₀ (by linarith)]
    linarith
  · exact iff_of_true (hm.coarser hpos hstep ht (not_exists.mp hmiddle))
      fun ⟨j, hj, _⟩ => hmiddle ⟨j, hj⟩

theorem not_astray_of_close {n : ℕ} (hn : 0 < n) (hx : ∃ i : ℤ, x * n = i)
    (hclose : |x - y| < 1 / 2 / n) : ¬ Astray x y := by
  rintro ⟨j, rfl, haside⟩
  obtain ⟨i, hi⟩ := hx
  have hn : (0 : ℚ) < n := by exact_mod_cast hn
  have hcount : ((2 * i - n * (2 * j + 1) : ℤ) : ℚ) = (x - (j + 1 / 2)) * (2 * n) := by
    push_cast
    rw [← hi]
    ring
  have hnone : |2 * i - n * (2 * j + 1)| < 1 := by
    have hlt : |((2 * i - n * (2 * j + 1) : ℤ) : ℚ)| < 1 := by
      rw [hcount, abs_mul, abs_of_pos (by positivity : (0 : ℚ) < 2 * n)]
      calc |x - (j + 1 / 2)| * (2 * n) < 1 / 2 / n * (2 * n) := by gcongr
        _ = 1 := by field_simp
    exact_mod_cast hlt
  have hmiddle : x = j + 1 / 2 := by
    have hzero := Int.abs_lt_one_iff.mp hnone
    rw [hzero, Int.cast_zero] at hcount
    have hfactor := (mul_eq_zero.mp hcount.symm).resolve_right (by positivity)
    linarith
  rcases haside with ⟨-, hlt⟩ | ⟨-, hlt⟩
  · exact absurd hmiddle hlt.ne'
  · exact absurd hmiddle hlt.ne

end ExchangeDesk
