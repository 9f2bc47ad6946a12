import Mathlib.Data.Rat.Lemmas
import Mathlib.Tactic.Positivity
import ExchangeDesk.Proofs.Nearest
import ExchangeDesk.Proofs.Numerals

/-!
# Decimals as numbers

What comparing, rounding and rescaling mean for the number that a decimal stands for.
-/

namespace ExchangeDesk

@[simp, norm_cast] theorem tenTo_cast (k : ℕ) : ((tenTo k : ℕ) : ℚ) = 10 ^ k := by
  rw [tenTo, Nat.pow_eq]
  push_cast
  rfl

theorem tenTo_eq_one_or_even (k : ℕ) : tenTo k = 1 ∨ Even (tenTo k) := by
  cases k with
  | zero => exact .inl tenTo_zero
  | succ k =>
    rw [tenTo_succ]
    exact .inr (Even.mul_left (by decide) _)

namespace Decimal

variable {a b d : Decimal} {places : ℕ}

theorem value_eq (d : Decimal) : d.value = d.signed / 10 ^ d.scale := by
  rw [value, Rat.mkRat_eq_div, tenTo_cast]

theorem value_mul_scale (d : Decimal) : d.value * 10 ^ d.scale = d.signed := by
  rw [value_eq]
  field_simp

theorem value_mul (h : d.scale ≤ places) :
    d.value * 10 ^ places = (d.signed * tenTo (places - d.scale) : ℤ) := by
  have hsplit : (10 : ℚ) ^ places = 10 ^ d.scale * 10 ^ (places - d.scale) := by
    rw [← pow_add, Nat.add_sub_cancel' h]
  rw [hsplit, ← mul_assoc, value_mul_scale]
  push_cast
  rfl

theorem abs_signed (d : Decimal) : |d.signed| = d.mantissa := by
  unfold signed
  split
  · simp
  · simp

theorem abs_value (d : Decimal) : |d.value| = d.mantissa / 10 ^ d.scale := by
  have hsigned : |(d.signed : ℚ)| = d.mantissa := by exact_mod_cast congrArg Int.cast d.abs_signed
  rw [value_eq, abs_div, hsigned, abs_of_pos (by positivity)]

theorem dropZeroSign_value (d : Decimal) : d.dropZeroSign.value = d.value := by
  rw [value, value, dropZeroSign_signed]
  rfl

theorem le_iff_value : a ≤ b ↔ a.value ≤ b.value := by
  rw [value_eq, value_eq, div_le_div_iff₀ (by positivity) (by positivity)]
  show a.signed * (tenTo b.scale : ℤ) ≤ b.signed * (tenTo a.scale : ℤ) ↔ _
  rw [← tenTo_cast, ← tenTo_cast]
  exact_mod_cast Iff.rfl

theorem beq_iff_value : (a == b) = true ↔ a.value = b.value := by
  rw [le_antisymm_iff (a := a.value), ← le_iff_value, ← le_iff_value]
  exact decide_eq_true_iff.trans le_antisymm_iff

theorem isPositive_iff_value : d.isPositive = true ↔ 0 < d.value := by
  have hpow : (0 : ℚ) < 10 ^ d.scale := by positivity
  rw [isPositive_iff, value_eq, div_pos_iff_of_pos_right hpow, Int.cast_pos, signed]
  cases d.negative with
  | false => simp [Nat.pos_iff_ne_zero]
  | true => simp

-- ---------------------------------------------------------------------------
-- Rounding and rescaling
-- ---------------------------------------------------------------------------

theorem round_nearest (d : Decimal) (places : ℕ) : ∃ m : ℤ,
    Nearest (d.value * 10 ^ places) m ∧ (d.round places).value * 10 ^ places = m := by
  unfold round
  split
  · next hs => exact ⟨_, value_mul hs ▸ .intCast _, value_mul hs⟩
  · next hs =>
    extract_lets rounded
    have hvalue : (if d.mantissa = 0 then rounded else rounded.dropZeroSign).value =
        rounded.value := by
      split
      · rfl
      · exact rounded.dropZeroSign_value
    have hsplit : (10 : ℚ) ^ d.scale = 10 ^ (d.scale - places) * 10 ^ places := by
      rw [← pow_add, Nat.sub_add_cancel (Nat.le_of_not_le hs)]
    have hscaled : d.value * 10 ^ places = if d.negative then
        -((d.mantissa : ℚ) / tenTo (d.scale - places)) else d.mantissa / tenTo (d.scale - places) := by
      rw [value_eq, hsplit, tenTo_cast, signed]
      split
      · push_cast
        field_simp
      · push_cast
        field_simp
    refine ⟨rounded.signed, ?_, hvalue ▸ rounded.value_mul_scale⟩
    rw [hscaled]
    exact (halfEven_nearest (tenTo_pos _)).withSign d.negative

theorem round_close (d : Decimal) (places : ℕ) :
    |d.value - (d.round places).value| ≤ 1 / 2 / 10 ^ places := by
  obtain ⟨m, hm, hround⟩ := d.round_nearest places
  have hvalue := eq_div_of_mul_eq (by positivity) hround
  rw [← tenTo_cast] at hm hvalue ⊢
  rw [hvalue]
  exact hm.close (tenTo_pos _)

theorem round_mono (h : a.value ≤ b.value) (places : ℕ) :
    (a.round places).value ≤ (b.round places).value := by
  obtain ⟨m, hm, ha⟩ := a.round_nearest places
  obtain ⟨k, hk, hb⟩ := b.round_nearest places
  have hpow : (0 : ℚ) < 10 ^ places := by positivity
  have hle : m ≤ k := hm.mono hk (by gcongr)
  rw [← mul_le_mul_iff_left₀ hpow, ha, hb]
  exact_mod_cast hle

theorem round_nonneg (h : 0 ≤ d.value) (places : ℕ) : 0 ≤ (d.round places).value := by
  obtain ⟨m, hm, hround⟩ := d.round_nearest places
  have hle : 0 ≤ m := hm.ge_of_ge (by rw [Int.cast_zero]; positivity)
  refine nonneg_of_mul_nonneg_left ?_ (by positivity : (0 : ℚ) < 10 ^ places)
  rw [hround]
  exact_mod_cast hle

/-- What has no more digits than the places is kept. -/
theorem round_of_whole (h : ∃ k : ℤ, d.value * 10 ^ places = k) :
    (d.round places).value = d.value := by
  obtain ⟨k, hk⟩ := h
  obtain ⟨m, hm, hd⟩ := d.round_nearest places
  rw [hk] at hm
  rw [hm.of_intCast, ← hk] at hd
  exact mul_right_cancel₀ (by positivity) hd

theorem round_le_of_le (hwhole : ∃ k : ℤ, a.value * 10 ^ places = k) (h : d.value ≤ a.value) :
    (d.round places).value ≤ a.value := by
  obtain ⟨k, hk⟩ := hwhole
  obtain ⟨m, hm, hd⟩ := d.round_nearest places
  have hpow : (0 : ℚ) < 10 ^ places := by positivity
  have hle : m ≤ k := by
    refine hm.le_of_le ?_
    rw [← hk]
    gcongr
  rw [← mul_le_mul_iff_left₀ hpow, hd, hk]
  exact_mod_cast hle

theorem appendZeros_value (count : ℕ) (d : Decimal) : (appendZeros count d).value = d.value := by
  induction count generalizing d with
  | zero => rfl
  | succ count ih =>
    rw [appendZeros]
    split
    · rw [ih, value_eq, value_eq, pow_succ]
      simp only [signed]
      split
      · push_cast
        field_simp
      · push_cast
        field_simp
    · rfl

theorem rescale_value (h : d.scale ≤ places) : (d.rescale places).value = d.value := by
  rw [rescale, dif_pos h, appendZeros_value]

theorem appendZeros_scale (count : ℕ) (d : Decimal) :
    (appendZeros count d).scale ≤ d.scale + count ∧
      ((appendZeros count d).scale = d.scale + count ↔
        d.mantissa * tenTo count < mantissaBound ∧ d.scale + count ≤ maxScale) := by
  induction count generalizing d with
  | zero => simp [appendZeros, d.mantissa_lt, d.scale_le]
  | succ count ih =>
    have hten : d.mantissa * tenTo (count + 1) = d.mantissa * 10 * tenTo count := by
      rw [tenTo_succ]
      ac_rfl
    rw [appendZeros, hten]
    split
    · next hroom =>
      obtain ⟨hle, hiff⟩ := ih { d with
        mantissa := d.mantissa * 10, scale := d.scale + 1, mantissa_lt := hroom.1
        scale_le := hroom.2 }
      rw [Nat.add_assoc, Nat.add_comm 1] at hle hiff
      exact ⟨hle, hiff⟩
    · next hroom =>
      refine ⟨by omega, iff_of_false (by omega) fun h => hroom ⟨?_, by omega⟩⟩
      exact Nat.lt_of_le_of_lt (Nat.le_mul_of_pos_right _ (tenTo_pos count)) h.1

theorem rescale_scale (h : d.scale ≤ places) (hplaces : places ≤ maxScale) :
    (d.rescale places).scale ≤ places ∧
      ((d.rescale places).scale = places ↔ |d.value| * 10 ^ places < mantissaBound) := by
  obtain ⟨hle, hiff⟩ := appendZeros_scale (places - d.scale) d
  rw [rescale, dif_pos h]
  rw [Nat.add_sub_cancel' h] at hle hiff
  refine ⟨hle, hiff.trans ?_⟩
  have hsplit : (10 : ℚ) ^ places = 10 ^ d.scale * 10 ^ (places - d.scale) := by
    rw [← pow_add, Nat.add_sub_cancel' h]
  have hdigits : |d.value| * 10 ^ places = (d.mantissa * tenTo (places - d.scale) : ℕ) := by
    rw [abs_value, hsplit]
    push_cast
    field_simp
  rw [hdigits, Nat.cast_lt]
  exact and_iff_left hplaces

end Decimal
end ExchangeDesk
