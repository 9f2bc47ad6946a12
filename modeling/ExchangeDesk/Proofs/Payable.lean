import ExchangeDesk.Proofs.Precision

/-!
# Payable amounts

`Currency.Cash` says which number an amount comes to in cash, without decimals: it is rounded to
the places of its currency and, where cash is paid in multiples, divided by the multiple and
rounded again. The result is a decimal wherever that number has room (`Currency.cash?_cases`).
So rounding to cash keeps the order and the sign and does nothing the second time
(`Currency.cash_stable`), and the multiple is the nearest one to the amount with the places of
its currency, unless the quotient that fits a decimal is `Astray` (`Currency.cash_nearest`).
-/

namespace ExchangeDesk

variable {x y z : ℚ} {m : UInt32} {a paid : Decimal}

-- ---------------------------------------------------------------------------
-- Quotients that are not astray
-- ---------------------------------------------------------------------------

namespace Decimal.Fitted

variable {d : Decimal}

theorem close (h : d.Fitted x) : |x - d.value| ≤ 1 / 2 / 10 ^ keptPlaces x := by
  obtain ⟨j, hj, hd⟩ := h.nearest
  have hvalue := eq_div_of_mul_eq (by positivity) hd
  rw [← tenTo_cast] at hj hvalue ⊢
  rw [hvalue]
  exact hj.close (tenTo_pos _)

theorem nearest_iff (h : d.Fitted x) {k : ℤ} (hk : Nearest d.value k) :
    Nearest x k ↔ ¬ Astray x d.value := by
  obtain ⟨j, hj, hd⟩ := h.nearest
  have hvalue := eq_div_of_mul_eq (by positivity) hd
  rw [← tenTo_cast] at hj hvalue
  rw [hvalue] at hk ⊢
  exact hj.coarser_iff (tenTo_pos _) (tenTo_eq_one_or_even _) hk

/-- A fraction is not `Astray` if the digits kept of it are finer than its denominator: it is a
middle itself or too far from one. -/
theorem not_astray (h : d.Fitted x) {n : ℕ} (hn : 0 < n) (hx : ∃ i : ℤ, x * n = i)
    (hroom : n < 10 ^ keptPlaces x) : ¬ Astray x d.value := by
  refine not_astray_of_close hn hx (h.close.trans_lt ?_)
  have hpos : (0 : ℚ) < n := by exact_mod_cast hn
  exact div_lt_div_of_pos_left (by norm_num) hpos (by exact_mod_cast hroom)

end Decimal.Fitted

-- ---------------------------------------------------------------------------
-- Amounts in cash as numbers
-- ---------------------------------------------------------------------------

theorem Decimal.ofUInt32_value (m : UInt32) : (Decimal.ofUInt32 m).value = m.toNat := by
  rw [value_eq]
  simp [ofUInt32, signed]

namespace Currency

variable {c : Currency}

/-- `y` is `x` in cash: rounded to the places of the currency and, if its multiple is above one, to
a multiple by way of the quotient that fits a decimal. -/
inductive Cash (c : Currency) (x : ℚ) : ℚ → Prop
  | places {j : ℤ} (hm : ∀ m, c.multiple = some m → ¬ 1 < m)
      (hj : Nearest (x * 10 ^ c.decimalPlaces.toNat) j) : Cash c x (j / 10 ^ c.decimalPlaces.toNat)
  | multiple {m : UInt32} {j k : ℤ} {count : Decimal} (hm : c.multiple = some m) (hlarge : 1 < m)
      (hj : Nearest (x * 10 ^ c.decimalPlaces.toNat) j)
      (hcount : count.Fitted (j / 10 ^ c.decimalPlaces.toNat / m.toNat))
      (hk : Nearest count.value k) : Cash c x (k * m.toNat)

theorem cash?_multiple (hm : c.multiple = some m) (hlarge : 1 < m) (a : Decimal) :
    ∃ (count : Decimal) (k : ℤ),
      (a.round c.decimalPlaces.toNat).div (.ofUInt32 m) = some count ∧
      count.Fitted ((a.round c.decimalPlaces.toNat).value / m.toNat) ∧ Nearest count.value k ∧
      Decimal.Rounded (k * m.toNat) (c.cash? a) := by
  obtain ⟨count, hcount, -⟩ := (a.round c.decimalPlaces.toNat).div_whole hlarge
  have hm0 : (Decimal.ofUInt32 m).mantissa ≠ 0 := by
    have hlarge : 1 < m.toNat := hlarge
    show m.toNat ≠ 0
    omega
  have hquotient := Decimal.div_rounded (a.round c.decimalPlaces.toNat) hm0
  rw [hcount, Decimal.ofUInt32_value] at hquotient
  obtain ⟨k, hk, hwhole⟩ := count.round_nearest 0
  rw [pow_zero, mul_one] at hk hwhole
  refine ⟨count, k, hcount, hquotient.fitted_of_some, hk, ?_⟩
  have hproduct := Decimal.mul_rounded (count.round 0) (.ofUInt32 m)
  rw [hwhole, Decimal.ofUInt32_value] at hproduct
  simpa only [cash?, hm, if_pos hlarge, hcount, Option.bind_some] using hproduct

theorem cash?_cases (c : Currency) (a : Decimal) : ∃ y, c.Cash a.value y ∧
    ((∃ paid, c.cash? a = some paid ∧ paid.value = y) ∨
      c.cash? a = none ∧ roundingLimit ≤ |y|) := by
  obtain ⟨j, hj, hround⟩ := a.round_nearest c.decimalPlaces.toNat
  have hvalue := eq_div_of_mul_eq (by positivity) hround
  by_cases hstepped : ∃ m, c.multiple = some m ∧ 1 < m
  · obtain ⟨m, hm, hlarge⟩ := hstepped
    obtain ⟨count, k, -, hcount, hk, hcash⟩ := cash?_multiple hm hlarge a
    rw [hvalue] at hcount
    refine ⟨_, .multiple hm hlarge hj hcount hk, ?_⟩
    cases hpaid : c.cash? a with
    | none =>
      rw [hpaid] at hcash
      cases hcash with
      | overflow hover => exact .inr ⟨rfl, hover⟩
    | some paid =>
      rw [hpaid] at hcash
      have hwhole : ∃ i : ℤ, (k : ℚ) * m.toNat = i := ⟨k * m.toNat, by push_cast; rfl⟩
      exact .inl ⟨paid, rfl, hcash.fitted_of_some.of_whole hwhole⟩
  · have hm (m : UInt32) (h : c.multiple = some m) : ¬ 1 < m := fun hlarge => hstepped ⟨m, h, hlarge⟩
    refine ⟨_, .places hm hj, .inl ⟨_, ?_, hvalue⟩⟩
    unfold cash?
    split
    · next m h => exact if_neg (hm m h)
    · rfl

namespace Cash

theorem mono (h : c.Cash x y) {x' y' : ℚ} (h' : c.Cash x' y') (hle : x ≤ x') : y ≤ y' := by
  have hscaled : x * 10 ^ c.decimalPlaces.toNat ≤ x' * 10 ^ c.decimalPlaces.toNat := by gcongr
  cases h with
  | places hm hj =>
    cases h' with
    | places _ hj' =>
      have hjj : _ ≤ _ := hj.mono hj' hscaled
      gcongr
    | multiple hm' hlarge => exact absurd hlarge (hm _ hm')
  | multiple hm hlarge hj hcount hk =>
    cases h' with
    | places hm' => exact absurd hlarge (hm' _ hm)
    | multiple hm' _ hj' hcount' hk' =>
      obtain rfl := Option.some.inj (hm.symm.trans hm')
      have hjj : _ ≤ _ := hj.mono hj' hscaled
      have hkk : _ ≤ _ := hk.mono hk' (hcount.mono hcount' (by gcongr))
      gcongr

theorem unique (h : c.Cash x y) (h' : c.Cash x z) : y = z :=
  le_antisymm (h.mono h' le_rfl) (h'.mono h le_rfl)

theorem neg (h : c.Cash x y) : c.Cash (-x) (-y) := by
  cases h with
  | places hm hj =>
    rw [← neg_div, ← Int.cast_neg]
    exact .places hm (neg_mul x _ ▸ hj.neg)
  | multiple hm hlarge hj hcount hk =>
    rw [← neg_mul, ← Int.cast_neg]
    have hcount := hcount.neg
    rw [← neg_div, ← neg_div, ← Int.cast_neg] at hcount
    refine .multiple hm hlarge (neg_mul x _ ▸ hj.neg) hcount ?_
    rw [Decimal.value_neg]
    exact hk.neg

theorem idem (h : c.Cash x y) : c.Cash y y := by
  cases h with
  | @places j hm hj =>
    refine .places hm ?_
    rw [div_mul_cancel₀ _ (by positivity)]
    exact .intCast j
  | @multiple m j k count hm hlarge hj hcount hk =>
    have hm0 : (m.toNat : ℚ) ≠ 0 := by
      have hlarge : 1 < m.toNat := hlarge
      exact_mod_cast (by omega : m.toNat ≠ 0)
    -- the whole part of the quotient is the quotient of what is paid
    obtain ⟨k', hk', hwhole⟩ := count.round_nearest 0
    rw [pow_zero, mul_one] at hk' hwhole
    rw [hk'.unique hk] at hwhole
    have hscaled : (k : ℚ) * m.toNat * 10 ^ c.decimalPlaces.toNat =
        ((k * m.toNat * 10 ^ c.decimalPlaces.toNat : ℤ) : ℚ) := by push_cast; rfl
    have hkept : (count.round 0).Fitted
        (((k * m.toNat * 10 ^ c.decimalPlaces.toNat : ℤ) : ℚ) / 10 ^ c.decimalPlaces.toNat / m.toNat) := by
      refine .of_value ?_
      rw [hwhole, ← hscaled]
      field_simp
    refine .multiple hm hlarge (by rw [hscaled]; exact .intCast _) hkept ?_
    rw [hwhole]
    exact .intCast k

end Cash

theorem cash_of_some (h : c.cash? a = some paid) : c.Cash a.value paid.value := by
  obtain ⟨y, hcash, ⟨_, hpaid, rfl⟩ | ⟨hnone, -⟩⟩ := c.cash?_cases a
  · obtain rfl := Option.some.inj (h.symm.trans hpaid)
    exact hcash
  · rw [h] at hnone
    cases hnone

theorem Cash.exists_decimal (h : c.Cash a.value y) (hy : |y| < roundingLimit) :
    ∃ paid, c.cash? a = some paid ∧ paid.value = y := by
  obtain ⟨z, hcash, hpaid | ⟨-, hover⟩⟩ := c.cash?_cases a
  · rwa [h.unique hcash]
  · rw [← h.unique hcash] at hover
    exact absurd hy (not_lt.mpr hover)

/-- `cash?` is monotone, idempotent and odd. What it returns has a result again, and so has the
opposite amount. -/
theorem cash_stable (c : Currency) :
    (∀ x y a b : Decimal, x ≤ y → c.cash? x = some a → c.cash? y = some b → a ≤ b) ∧
    ∀ x a : Decimal, c.cash? x = some a →
      (∃ again, c.cash? a = some again ∧ again.value = a.value) ∧
      ∃ opposite, c.cash? (-x) = some opposite ∧ opposite.value = -a.value := by
  refine ⟨fun x y a b hle ha hb => ?_, fun x a ha => ⟨?_, ?_⟩⟩
  · exact Decimal.le_iff_value.mpr
      ((cash_of_some ha).mono (cash_of_some hb) (Decimal.le_iff_value.mp hle))
  · exact (cash_of_some ha).idem.exists_decimal a.abs_value_lt
  · have hneg := (cash_of_some ha).neg
    rw [← Decimal.value_neg] at hneg
    exact hneg.exists_decimal (by rw [abs_neg]; exact a.abs_value_lt)

def fifties : Currency :=
  { code := ⟨"UGX"⟩, name := "Uganda Shilling", decimalPlaces := 0, multiple := some 50, isHome := true }

theorem cash_stable_fifties :
    ∃ less more opposite again, fifties.cash? (.ofUInt32 370024) = some less ∧
      fifties.cash? (.ofUInt32 370026) = some more ∧ less ≤ more ∧
      fifties.cash? (-.ofUInt32 370026) = some opposite ∧ opposite.value = -370050 ∧
      fifties.cash? more = some again ∧ again.value = more.value := by
  obtain ⟨hmono, hstable⟩ := cash_stable fifties
  have hless : fifties.cash? (.ofUInt32 370024) = some (.ofUInt32 370000) := by decide +kernel
  have hmore : fifties.cash? (.ofUInt32 370026) = some (.ofUInt32 370050) := by decide +kernel
  obtain ⟨⟨again, hagain, hsame⟩, opposite, hopposite, hvalue⟩ := hstable _ _ hmore
  refine ⟨_, _, opposite, again, hless, hmore, hmono _ _ _ _ (by decide) hless hmore, hopposite, ?_,
    hagain, hsame⟩
  rw [hvalue]
  decide +kernel

-- ---------------------------------------------------------------------------
-- The nearest multiple
-- ---------------------------------------------------------------------------

/-- With a multiple `m` above one, the cash paid is a multiple. It is the nearest one to the amount
rounded to the places of its currency, at most `m / 2` away, unless the quotient by `m` that fits a
decimal is `Astray`. It is not where the quotient with some number of `places` is below
`roundingLimit` and `10 ^ places` above its denominator, `m * 10 ^ rounded.scale`. There is a result
for every amount more than `m` below `mantissaBound`. -/
theorem cash_nearest (hm : c.multiple = some m) (hlarge : 1 < m) (a : Decimal) :
    (|a.value| + m.toNat < mantissaBound → ∃ paid, c.cash? a = some paid) ∧
    ∀ paid, c.cash? a = some paid →
      let rounded := a.round c.decimalPlaces.toNat
      ∃ (count : Decimal) (k : ℤ), paid.value = k * m.toNat ∧
        rounded.div (.ofUInt32 m) = some count ∧
        (¬ Astray (rounded.value / m.toNat) count.value →
          Nearest (rounded.value / m.toNat) k ∧ |rounded.value - paid.value| ≤ m.toNat / 2 ∧
          |a.value - paid.value| ≤ m.toNat / 2 + 1 / 2 / 10 ^ c.decimalPlaces.toNat ∧
          ((∃ j : ℤ, a.value * 10 ^ c.decimalPlaces.toNat = j) →
            |a.value - paid.value| ≤ m.toNat / 2)) ∧
        ∀ places ≤ maxScale, m.toNat * 10 ^ rounded.scale < 10 ^ places →
          |rounded.value / m.toNat| * 10 ^ places < roundingLimit →
          ¬ Astray (rounded.value / m.toNat) count.value := by
  have hpos : (0 : ℚ) < m.toNat := by
    have hlarge : 1 < m.toNat := hlarge
    exact_mod_cast (by omega : 0 < m.toNat)
  constructor
  · intro hroom
    by_contra hnone
    have hnone : c.cash? a = none := Option.eq_none_iff_forall_ne_some.mpr (not_exists.mp hnone)
    obtain ⟨_, hm', -, hscale, hlast⟩ := cash?_none hnone
    obtain rfl := Option.some.inj (hm.symm.trans hm')
    rw [Decimal.abs_value, hscale, pow_zero, div_one] at hroom
    exact absurd hlast (Nat.not_le.mpr (by exact_mod_cast hroom))
  · intro paid hpaid rounded
    obtain ⟨count, k, hcount, hfitted, hk, hcash⟩ := cash?_multiple hm hlarge a
    have hvalue : paid.value = k * m.toNat := by
      rw [hpaid] at hcash
      exact hcash.fitted_of_some.of_whole ⟨k * m.toNat, by push_cast; rfl⟩
    refine ⟨count, k, hvalue, hcount, fun hstraight => ?_, fun places hplaces hdigits hroom => ?_⟩
    · have hnearest := (hfitted.nearest_iff hk).mpr hstraight
      have hhalf : |rounded.value - paid.value| ≤ m.toNat / 2 := by
        rw [hvalue]
        exact hnearest.within_multiple (by exact_mod_cast hpos)
      have htriangle := abs_sub_le a.value rounded.value paid.value
      have hclose := a.round_close c.decimalPlaces.toNat
      refine ⟨hnearest, hhalf, by linarith, fun hdigits => ?_⟩
      rwa [← Decimal.round_of_whole hdigits]
    · have hkept := le_keptPlaces hplaces hroom
      refine hfitted.not_astray (n := m.toNat * 10 ^ rounded.scale) ?_ ?_ ?_
      · exact Nat.mul_pos (by exact_mod_cast hpos) (by positivity)
      · refine ⟨rounded.signed, ?_⟩
        rw [← rounded.value_mul_scale, Nat.cast_mul, ← mul_assoc, div_mul_cancel₀ _ hpos.ne',
          Nat.cast_pow, Nat.cast_ofNat]
      · exact hdigits.trans_le (Nat.pow_le_pow_right (by norm_num) hkept)

theorem cash_nearest_fifties : fifties.multiple = some 50 ∧ (1 : UInt32) < 50 ∧
    ∃ paid, fifties.cash? (.ofUInt32 370030) = some paid ∧ paid.text = "370050" ∧
      |370030 - paid.value| ≤ 25 := by
  have hpaid : fifties.cash? (.ofUInt32 370030) = some (.ofUInt32 370050) := by decide +kernel
  obtain ⟨-, hnearest⟩ := cash_nearest (c := fifties) (m := 50) rfl (by decide) (.ofUInt32 370030)
  obtain ⟨count, k, -, -, hhalf, hstraight⟩ := hnearest _ hpaid
  refine ⟨rfl, by decide, _, hpaid, by decide +kernel, ?_⟩
  obtain ⟨-, -, -, hclose⟩ := hhalf (hstraight 2 (by decide) (by decide) (by decide +kernel))
  have hvalue : (Decimal.ofUInt32 370030).value = 370030 := by decide +kernel
  rw [hvalue] at hclose
  exact (hclose ⟨370030, by decide +kernel⟩).trans (by decide +kernel)

/-- 25.4 is rounded to 25 and then, from the middle, to 0, which is more than half of 50 away. -/
theorem cash_not_nearest : ¬ ∃ (paid : Decimal) (k : ℤ),
    fifties.cash? { negative := false, mantissa := 254, scale := 1 } = some paid ∧
      paid.value = k * 50 ∧
      |({ negative := false, mantissa := 254, scale := 1 } : Decimal).value - paid.value| ≤ 50 / 2 := by
  rintro ⟨paid, k, hpaid, -, hclose⟩
  have hzero : (fifties.cash? { negative := false, mantissa := 254, scale := 1 }).map (·.value) =
      some 0 := by decide +kernel
  rw [hpaid] at hzero
  have hzero : paid.value = 0 := Option.some.inj hzero
  rw [hzero] at hclose
  exact absurd hclose (by decide +kernel)

end Currency
end ExchangeDesk
