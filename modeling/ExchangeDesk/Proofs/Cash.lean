import ExchangeDesk.Currency.Basic
import ExchangeDesk.Proofs.Decimal

/-!
# Amounts in cash

An amount is rounded to the multiple of its currency by a quotient and a product. The quotient
is always there (`Decimal.div_whole`), and rounded to a whole number it is at most one above
the exact one. So the product is missing only for an amount that is within one multiple of the
largest decimal (`Currency.cash?_none`).
-/

namespace ExchangeDesk

variable {n d k : Nat}

theorem halfEven_le_of_le_mul (hd : 0 < d) (h : n ≤ k * d) : halfEven n d ≤ k := by
  have hsum := Nat.div_add_mod n d
  unfold halfEven
  split
  · exact Nat.div_le_of_le_mul (by rwa [Nat.mul_comm] at h)
  · next hround =>
    have hmod : 0 < n % d := by
      rcases Nat.eq_zero_or_pos (n % d) with hzero | hpos
      · exact absurd (.inl (by omega)) hround
      · exact hpos
    refine Nat.succ_le_of_lt (Nat.lt_of_mul_lt_mul_left (a := d) ?_)
    rw [Nat.mul_comm d k]
    omega

namespace Decimal

variable {negative : Bool} {scale : Nat}

theorem ofParts?_isSome {mantissa : Nat} (hm : mantissa < mantissaBound) (hs : scale ≤ maxScale) :
    (ofParts? negative mantissa scale).isSome := by
  rw [ofParts?, dif_pos ⟨hm, hs⟩]
  rfl

theorem trimZeros_isSome {mantissa : Nat} (hm : mantissa < mantissaBound) (hs : scale ≤ maxScale) :
    (trimZeros negative mantissa scale).isSome := by
  induction scale generalizing mantissa with
  | zero => exact ofParts?_isSome hm hs
  | succ scale ih =>
    rw [trimZeros]
    split
    · exact ih (by omega) (by omega)
    · exact ofParts?_isSome hm hs

theorem quotientScale_isSome (h : n / d < mantissaBound) (limit : Nat) :
    ∃ scale, quotientScale n d limit = some scale ∧ scale ≤ limit ∧
      n * tenTo scale / d < mantissaBound := by
  induction limit with
  | zero => exact ⟨0, by rw [quotientScale, if_pos h], Nat.le_refl 0, by simpa using h⟩
  | succ limit ih =>
    rw [quotientScale]
    split
    · next hfits => exact ⟨limit + 1, rfl, Nat.le_refl _, hfits⟩
    · obtain ⟨scale, hscale, hle, hfits⟩ := ih
      exact ⟨scale, hscale, Nat.le_succ_of_le hle, hfits⟩

theorem halfEven_shorter (h : n * tenTo (k + 1) / d < mantissaBound) :
    halfEven (n * tenTo k) d < mantissaBound := by
  have hten := ten_lt_mantissaBound
  have hle : 10 * (n * tenTo k / d) ≤ n * tenTo (k + 1) / d := by
    rw [tenTo_succ, ← Nat.mul_assoc, Nat.mul_comm _ 10]
    exact Nat.mul_div_le_mul_div_assoc _ _ _
  rcases halfEven_eq (n * tenTo k) d with heq | heq
  · omega
  · omega

theorem fitQuotient_isSome (h : n / d + 1 < mantissaBound) :
    (fitQuotient negative n d).isSome := by
  obtain ⟨scale, hscale, hle, hfits⟩ := quotientScale_isSome (n := n) (d := d) (by omega) maxScale
  rw [fitQuotient, hscale, Option.bind_some]
  simp only [quotientAt]
  split
  · next hm => exact trimZeros_isSome hm hle
  · next hm =>
    cases scale with
    | zero =>
      rw [tenTo_zero, Nat.mul_one] at hm
      rcases halfEven_eq n d with heq | heq <;> omega
    | succ shorter => exact trimZeros_isSome (halfEven_shorter hfits) (by omega)

theorem round_zero_mantissa_le {q : Decimal} (h : q.mantissa ≤ k * tenTo q.scale) :
    (q.round 0).mantissa ≤ k := by
  unfold round
  split
  · next hs =>
    rw [Nat.le_zero.mp hs] at h
    simpa using h
  · split
    · exact halfEven_le_of_le_mul (tenTo_pos _) h
    · exact halfEven_le_of_le_mul (tenTo_pos _) h

theorem fitQuotient_mantissa_le {q : Decimal} (hd : 0 < d)
    (h : fitQuotient negative n d = some q) : q.mantissa ≤ (n / d + 1) * tenTo q.scale := by
  have htrimmed {scale : Nat}
      (hq : trimZeros negative (halfEven (n * tenTo scale) d) scale = some q) :
      q.mantissa ≤ (n / d + 1) * tenTo q.scale := by
    obtain ⟨-, hs, hm⟩ := trimZeros_some hq
    have hceil : n ≤ (n / d + 1) * d := by
      rw [Nat.mul_comm]
      exact Nat.le_of_lt (Nat.lt_mul_div_succ n hd)
    have hround : halfEven (n * tenTo scale) d ≤ (n / d + 1) * tenTo scale := by
      refine halfEven_le_of_le_mul hd ?_
      calc n * tenTo scale ≤ (n / d + 1) * d * tenTo scale := Nat.mul_le_mul_right _ hceil
        _ = (n / d + 1) * tenTo scale * d := by ac_rfl
    have hsplit : tenTo scale = tenTo q.scale * tenTo (scale - q.scale) := by
      rw [← tenTo_add, Nat.add_sub_cancel' hs]
    rw [← hm, hsplit, ← Nat.mul_assoc] at hround
    exact Nat.le_of_mul_le_mul_right hround (tenTo_pos _)
  obtain ⟨scale, -, hq⟩ := Option.bind_eq_some_iff.mp h
  rcases quotientAt_some hq with hq | ⟨-, shorter, hq⟩
  · exact htrimmed hq
  · exact htrimmed hq

/-- A quotient by a whole number above one does not overflow, and rounding it to a whole number adds
at most one. -/
theorem div_whole (a : Decimal) {m : UInt32} (hm : 1 < m) : ∃ q, a.div (.ofUInt32 m) = some q ∧
    (q.round 0).mantissa ≤ a.mantissa / (m.toNat * tenTo a.scale) + 1 := by
  have hm : 1 < m.toNat := hm
  have hd : 1 < m.toNat * tenTo a.scale :=
    Nat.lt_of_lt_of_le hm (Nat.le_mul_of_pos_right _ (tenTo_pos _))
  by_cases hzero : a.mantissa = 0
  · exact ⟨zero, by simp [div, ofUInt32, hzero]; omega, by simp [round, zero]⟩
  by_cases hdvd : a.mantissa % m.toNat = 0
  · -- the mantissas divide
    have hfits : a.mantissa / m.toNat < mantissaBound :=
      Nat.lt_of_le_of_lt (Nat.div_le_self _ _) a.mantissa_lt
    refine ⟨⟨a.negative, a.mantissa / m.toNat, a.scale, hfits, a.scale_le⟩, ?_, ?_⟩
    · have hm0 : m.toNat ≠ 0 := by omega
      simp [div, ofUInt32, hzero, hdvd, hm0, ofParts?, hfits, a.scale_le]
    · refine round_zero_mantissa_le ?_
      rw [← Nat.div_div_eq_div_mul, Nat.mul_comm]
      exact Nat.le_of_lt (Nat.lt_mul_div_succ _ (tenTo_pos _))
  · have hsmall : a.mantissa / (m.toNat * tenTo a.scale) + 1 < mantissaBound := by
      have hhalf : a.mantissa / (m.toNat * tenTo a.scale) ≤ a.mantissa / 2 :=
        Nat.div_le_div_left hd (by decide)
      have hbound := a.mantissa_lt
      have hten := ten_lt_mantissaBound
      omega
    have hsome : (fitQuotient a.negative a.mantissa (m.toNat * tenTo a.scale)).isSome :=
      fitQuotient_isSome hsmall
    obtain ⟨q, hq⟩ := Option.isSome_iff_exists.mp hsome
    refine ⟨q.dropZeroSign, ?_, ?_⟩
    · have hm0 : m.toNat ≠ 0 := by omega
      simp [div, ofUInt32, hzero, hdvd, hm0, hq]
    · have hle := fitQuotient_mantissa_le (by omega) hq
      exact round_zero_mantissa_le (q := q.dropZeroSign) hle

theorem mul_whole_isSome {a b : Decimal} (ha : a.scale = 0) (hb : b.scale = 0)
    (h : a.mantissa * b.mantissa < mantissaBound) : (a.mul b).isSome := by
  have hfit (negative : Bool) : (fit negative (a.mantissa * b.mantissa) 0).isSome := by
    have hexcess : excessDigits (a.mantissa * b.mantissa) = 0 := by
      rw [excessDigits, if_pos h]
    simp [fit, hexcess, h, ofParts?_isSome]
  have hshort : ¬ shortProductScale < 0 := by decide
  simp only [mul, ha, hb, Nat.add_zero, hshort, if_false]
  split
  · rfl
  · split
    · rw [Option.isSome_map]
      exact hfit _
    · exact hfit _

/-- If a count of steps, at most one above that of an amount, overflows when multiplied by the step,
the amount is within one step of the largest decimal. -/
theorem le_of_mul_count_none {a q : Decimal} {m : UInt32}
    (hcount : (q.round 0).mantissa ≤ a.mantissa / (m.toNat * tenTo a.scale) + 1)
    (h : (q.round 0).mul (.ofUInt32 m) = none) :
    mantissaBound ≤ a.mantissa / tenTo a.scale + m.toNat := by
  have hproduct : mantissaBound ≤ (q.round 0).mantissa * m.toNat := by
    refine Nat.le_of_not_lt fun hfits => ?_
    have hsome := mul_whole_isSome (a := q.round 0) (b := .ofUInt32 m)
      (Nat.le_zero.mp (round_scale_le q 0)) rfl hfits
    simp [h] at hsome
  calc mantissaBound ≤ (q.round 0).mantissa * m.toNat := hproduct
    _ ≤ (a.mantissa / (m.toNat * tenTo a.scale) + 1) * m.toNat := Nat.mul_le_mul_right _ hcount
    _ = a.mantissa / tenTo a.scale / m.toNat * m.toNat + m.toNat := by
      rw [Nat.add_mul, Nat.one_mul, Nat.mul_comm m.toNat (tenTo a.scale), Nat.div_div_eq_div_mul]
    _ ≤ a.mantissa / tenTo a.scale + m.toNat := Nat.add_le_add_right (Nat.div_mul_le_self _ _) _

theorem round_whole_le {a : Decimal} (h : a.scale ≠ 0) (places : Nat) :
    (a.round places).mantissa / tenTo (a.round places).scale ≤ a.mantissa / 10 + 1 := by
  have hten {k : Nat} (hk : k ≠ 0) : a.mantissa / tenTo k ≤ a.mantissa / 10 :=
    Nat.div_le_div_left (tenTo_le (Nat.one_le_iff_ne_zero.mpr hk)) (by decide)
  have hhalf (hs : ¬ a.scale ≤ places) :
      halfEven a.mantissa (tenTo (a.scale - places)) ≤ a.mantissa / 10 + 1 := by
    have hle := hten (k := a.scale - places) (by omega)
    rcases halfEven_eq a.mantissa (tenTo (a.scale - places)) with heq | heq <;> omega
  unfold round
  split
  · exact Nat.le_succ_of_le (hten h)
  · next hs =>
    split
    · exact Nat.le_trans (Nat.div_le_self _ _) (hhalf hs)
    · exact Nat.le_trans (Nat.div_le_self _ _) (hhalf hs)

end Decimal

/-- Only an amount within one multiple of the largest decimal cannot be rounded to cash. -/
theorem Currency.cash?_none {c : Currency} {a : Decimal} (h : c.cash? a = none) :
    ∃ m, c.multiple = some m ∧ 1 < m ∧ a.scale = 0 ∧ mantissaBound ≤ a.mantissa + m.toNat := by
  unfold cash? at h
  cases hmultiple : c.multiple with
  | none => simp [hmultiple] at h
  | some m =>
    simp only [hmultiple] at h
    split at h
    · next hm =>
      obtain ⟨q, hq, hcount⟩ := (a.round c.decimalPlaces.toNat).div_whole hm
      rw [hq, Option.bind_some] at h
      refine ⟨m, rfl, hm, ?_⟩
      have hwhole := Decimal.le_of_mul_count_none hcount h
      generalize hr : a.round c.decimalPlaces.toNat = r at hwhole
      by_cases hscale : a.scale = 0
      · obtain rfl : a = r := by rw [← hr, Decimal.round, dif_pos (by omega)]
        exact ⟨hscale, by simpa [hscale] using hwhole⟩
      · have hsmall := Decimal.round_whole_le hscale c.decimalPlaces.toNat
        rw [hr] at hsmall
        have hbound : a.mantissa < mantissaBound := a.mantissa_lt
        have hm' : m.toNat < 4294967296 := m.toNat_lt
        simp only [mantissaBound] at hwhole hbound
        omega
    · cases h

end ExchangeDesk
