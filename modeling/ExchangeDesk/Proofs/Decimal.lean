import ExchangeDesk.Decimal.Arithmetic

/-!
# Digits kept and lost

What is left of a number when digits are dropped from its end. A product drops
digits past the twenty-eighth of its fraction or where its mantissa is too long;
a quotient is cut at the twenty-eighth digit or sooner. A result is zero only if
the exact one is at most half of the last digit that was kept.
-/

namespace ExchangeDesk

variable {n d k : Nat} {negative : Bool}

theorem tenTo_le {m n : Nat} (h : m ≤ n) : tenTo m ≤ tenTo n := by
  obtain ⟨k, rfl⟩ := Nat.exists_eq_add_of_le h
  rw [tenTo_add]
  exact Nat.le_mul_of_pos_right _ (tenTo_pos k)

theorem ten_lt_mantissaBound : 10 < mantissaBound := by decide

theorem tenTo_maxScale_lt : tenTo maxScale < mantissaBound := by decide +kernel

theorem halfEven_eq_zero (hd : 0 < d) : halfEven n d = 0 ↔ 2 * n ≤ d := by
  rcases Nat.lt_or_ge n d with hlt | hge
  · rw [halfEven, Nat.div_eq_of_lt hlt, Nat.mod_eq_of_lt hlt]
    split
    · next h =>
      refine ⟨fun _ => ?_, fun _ => rfl⟩
      omega
    · next h =>
      refine ⟨fun hzero => ?_, fun hle => absurd ?_ h⟩
      · omega
      · omega
  · have hdiv : 0 < n / d := Nat.div_pos hge hd
    rcases halfEven_eq n d with h | h <;> omega

theorem div_le_halfEven (n d : Nat) : n / d ≤ halfEven n d := by
  rcases halfEven_eq n d with h | h <;> omega

theorem le_of_lt_halfEven {k : Nat} (h : 10 < halfEven n (tenTo k)) : tenTo (k + 1) ≤ n := by
  have hdiv : 10 ≤ n / tenTo k := by
    rcases halfEven_eq n (tenTo k) with heq | heq <;> omega
  rw [tenTo_succ, Nat.mul_comm]
  exact (Nat.le_div_iff_mul_le (tenTo_pos k)).mp hdiv

theorem halfEven_mul (hd : 0 < d) (n : Nat) : halfEven (n * d) d = n := by
  simp [halfEven, Nat.mul_div_cancel n hd, hd]

namespace Decimal

instance : ReflBEq Decimal := ⟨decide_eq_true rfl⟩

theorem value_neg (d : Decimal) : (-d).value = -d.value := by
  have hsigned : (-d).signed = -d.signed := by
    show (neg d).signed = -d.signed
    cases hd : d.negative with
    | false => simp [neg, signed, hd]
    | true => simp [neg, signed, hd]
  rw [value, hsigned, value, Rat.neg_mkRat]
  rfl

theorem ofParts?_some {mantissa scale : Nat} {q : Decimal}
    (h : ofParts? negative mantissa scale = some q) :
    q.negative = negative ∧ q.mantissa = mantissa ∧ q.scale = scale := by
  unfold ofParts? at h
  split at h
  · cases h
    exact ⟨rfl, rfl, rfl⟩
  · cases h

-- ---------------------------------------------------------------------------
-- Dropping digits
-- ---------------------------------------------------------------------------

theorem excessDigits_le (n : Nat) : excessDigits n = 0 ∨ tenTo (excessDigits n) ≤ n := by
  induction n using excessDigits.induct with
  | case1 n h => exact .inl (by rw [excessDigits, if_pos h])
  | case2 n h ih =>
    right
    rw [excessDigits, if_neg h, tenTo_succ]
    rcases ih with h0 | hle
    · have hbound := ten_lt_mantissaBound
      rw [h0, tenTo_zero]
      omega
    · omega

theorem fit_some {scale : Nat} {q : Decimal} (h : fit negative n scale = some q) :
    q.negative = negative ∧ ∃ dropped, dropped ≤ scale ∧ q.scale = scale - dropped ∧
      q.mantissa = halfEven n (tenTo dropped) ∧
      (dropped = scale - maxScale ∨ scale - maxScale < dropped ∧ tenTo dropped ≤ n) := by
  unfold fit at h
  extract_lets least dropped at h
  have hleast : least = scale - maxScale ∨ scale - maxScale < least ∧ tenTo least ≤ n := by
    have hexcess := excessDigits_le n
    rcases Nat.le_total (excessDigits n) (scale - maxScale) with hle | hle
    · exact .inl (Nat.max_eq_right hle)
    · rw [show least = excessDigits n from Nat.max_eq_left hle]
      omega
  have hdropped : dropped = scale - maxScale ∨ scale - maxScale < dropped ∧ tenTo dropped ≤ n := by
    unfold dropped
    split
    · exact hleast
    · next hround =>
      -- rounding up to `2 ^ 96` drops one more digit, which `n` has
      refine .inr ⟨by omega, le_of_lt_halfEven ?_⟩
      exact Nat.lt_of_lt_of_le ten_lt_mantissaBound (Nat.le_of_not_lt hround)
  split at h
  · next hle =>
    obtain ⟨hn, hm, hs⟩ := ofParts?_some h
    exact ⟨hn, dropped, hle, hs, hm, hdropped⟩
  · cases h

theorem fit_mantissa_eq_zero {scale : Nat} {q : Decimal} (h : fit negative n scale = some q) :
    q.mantissa = 0 ↔ 2 * n * tenTo maxScale ≤ tenTo scale := by
  obtain ⟨-, dropped, -, -, hm, hdropped⟩ := fit_some h
  rw [hm, halfEven_eq_zero (tenTo_pos dropped)]
  have hpos := tenTo_pos maxScale
  rcases hdropped with rfl | ⟨hlt, hle⟩
  · rcases Nat.le_total maxScale scale with hs | hs
    · have hsplit : tenTo scale = tenTo (scale - maxScale) * tenTo maxScale := by
        rw [← tenTo_add, Nat.sub_add_cancel hs]
      rw [hsplit, Nat.mul_le_mul_right_iff hpos]
    · rw [Nat.sub_eq_zero_of_le hs, tenTo_zero]
      have hscale := tenTo_le hs
      rcases Nat.eq_zero_or_pos n with rfl | hn
      · simp
      · have hbig : 2 * tenTo maxScale ≤ 2 * n * tenTo maxScale :=
          Nat.mul_le_mul_right _ (by omega)
        omega
  · have hscale : tenTo scale ≤ tenTo dropped * tenTo maxScale := by
      rw [← tenTo_add]
      exact tenTo_le (by omega)
    have hbig : tenTo dropped * tenTo maxScale ≤ n * tenTo maxScale := Nat.mul_le_mul_right _ hle
    have hn := tenTo_pos dropped
    have hproduct : 0 < n * tenTo maxScale := Nat.mul_pos (by omega) hpos
    rw [Nat.mul_assoc]
    omega

-- ---------------------------------------------------------------------------
-- Products
-- ---------------------------------------------------------------------------

theorem isPositive_iff {d : Decimal} :
    d.isPositive = true ↔ d.negative = false ∧ d.mantissa ≠ 0 := by
  simp [isPositive]

@[simp] theorem dropZeroSign_mantissa (d : Decimal) : d.dropZeroSign.mantissa = d.mantissa := rfl

theorem dropZeroSign_negative {d : Decimal} (h : d.negative = false) :
    d.dropZeroSign.negative = false := by
  simp [dropZeroSign, h]

/-- The product of two positive numbers is at most half of the 28th digit, so it rounds to zero. -/
def LostInProduct (a b : Decimal) : Prop :=
  2 * (a.mantissa * b.mantissa) * tenTo maxScale ≤ tenTo (a.scale + b.scale)

instance (a b : Decimal) : Decidable (LostInProduct a b) := Nat.decLe _ _

theorem lostInProduct_short {a b : Decimal} (ha : a.isShort = true) (hb : b.isShort = true)
    (hs : shortProductScale < a.scale + b.scale) : LostInProduct a b := by
  have hma : a.mantissa < UInt32.size := by simpa [isShort] using ha
  have hmb : b.mantissa < UInt32.size := by simpa [isShort] using hb
  have hm : a.mantissa * b.mantissa ≤ UInt32.size * UInt32.size :=
    Nat.mul_le_mul (Nat.le_of_lt hma) (Nat.le_of_lt hmb)
  have hscale : tenTo (shortProductScale + 1) ≤ tenTo (a.scale + b.scale) := tenTo_le hs
  have hshort : 2 * (UInt32.size * UInt32.size) * tenTo maxScale ≤
      tenTo (shortProductScale + 1) := by decide
  calc 2 * (a.mantissa * b.mantissa) * tenTo maxScale
      ≤ 2 * (UInt32.size * UInt32.size) * tenTo maxScale :=
        Nat.mul_le_mul_right _ (Nat.mul_le_mul_left 2 hm)
    _ ≤ tenTo (a.scale + b.scale) := Nat.le_trans hshort hscale

theorem mul_isPositive {a b p : Decimal} (ha : a.isPositive = true) (hb : b.isPositive = true)
    (h : a.mul b = some p) : p.isPositive = true ↔ ¬ LostInProduct a b := by
  obtain ⟨hna, hma⟩ := isPositive_iff.mp ha
  obtain ⟨hnb, hmb⟩ := isPositive_iff.mp hb
  have hfit (q : Decimal) (hq : fit (a.negative != b.negative) (a.mantissa * b.mantissa)
      (a.scale + b.scale) = some q) :
      q.negative = false ∧ (q.mantissa = 0 ↔ LostInProduct a b) := by
    refine ⟨?_, fit_mantissa_eq_zero hq⟩
    rw [(fit_some hq).1, hna, hnb]
    rfl
  simp only [mul, hma, hmb, or_self, if_false] at h
  split at h
  · next hshort =>
    obtain ⟨hsa, hsb⟩ := Bool.and_eq_true_iff.mp hshort
    split at h
    · next hs =>
      cases h
      have hlost := lostInProduct_short hsa hsb hs
      simp [isPositive, zero, hlost]
    · obtain ⟨q, hq, rfl⟩ := Option.map_eq_some_iff.mp h
      obtain ⟨hn, hm⟩ := hfit q hq
      rw [isPositive_iff, dropZeroSign_mantissa, ← hm]
      simp [dropZeroSign_negative hn]
  · obtain ⟨hn, hm⟩ := hfit p h
    rw [isPositive_iff, ← hm]
    simp [hn]

-- ---------------------------------------------------------------------------
-- Quotients
-- ---------------------------------------------------------------------------

theorem trimZeros_some {mantissa scale : Nat} {q : Decimal}
    (h : trimZeros negative mantissa scale = some q) :
    q.negative = negative ∧ q.scale ≤ scale ∧ q.mantissa * tenTo (scale - q.scale) = mantissa := by
  induction scale generalizing mantissa with
  | zero =>
    obtain ⟨hn, hm, hs⟩ := ofParts?_some h
    exact ⟨hn, Nat.le_of_eq hs, by simp [hm, hs]⟩
  | succ scale ih =>
    rw [trimZeros] at h
    split at h
    · next hzero =>
      obtain ⟨hn, hs, hm⟩ := ih h
      refine ⟨hn, Nat.le_succ_of_le hs, ?_⟩
      rw [Nat.succ_sub hs, tenTo_succ, ← Nat.mul_assoc, hm]
      omega
    · obtain ⟨hn, hm, hs⟩ := ofParts?_some h
      exact ⟨hn, Nat.le_of_eq hs, by simp [hm, hs]⟩

theorem quotientScale_some {limit scale : Nat} (h : quotientScale n d limit = some scale) :
    scale ≤ limit ∧ (scale = limit ∨ mantissaBound ≤ n * tenTo limit / d) := by
  induction limit with
  | zero =>
    rw [quotientScale] at h
    split at h
    · cases h
      exact ⟨Nat.le_refl 0, .inl rfl⟩
    · cases h
  | succ limit ih =>
    rw [quotientScale] at h
    split at h
    · cases h
      exact ⟨Nat.le_refl _, .inl rfl⟩
    · next hlong => exact ⟨Nat.le_succ_of_le (ih h).1, .inr (Nat.le_of_not_lt hlong)⟩

theorem tenTo_le_halfEven (hd : 0 < d) (hle : d ≤ n) (k : Nat) :
    tenTo k ≤ halfEven (n * tenTo k) d := by
  refine Nat.le_trans ?_ (div_le_halfEven _ _)
  rw [Nat.le_div_iff_mul_le hd, Nat.mul_comm]
  exact Nat.mul_le_mul_right _ hle

theorem trimZeros_large {scale : Nat} {q : Decimal} (hd : 0 < d) (hle : d ≤ n)
    (h : trimZeros negative (halfEven (n * tenTo scale) d) scale = some q) :
    tenTo q.scale ≤ q.mantissa := by
  obtain ⟨-, hs, hm⟩ := trimZeros_some h
  have hsplit : tenTo q.scale * tenTo (scale - q.scale) = tenTo scale := by
    rw [← tenTo_add, Nat.add_sub_cancel' hs]
  refine Nat.le_of_mul_le_mul_right ?_ (tenTo_pos (scale - q.scale))
  rw [hm, hsplit]
  exact tenTo_le_halfEven hd hle scale

theorem quotientAt_some {scale : Nat} {q : Decimal} (h : quotientAt negative n d scale = some q) :
    trimZeros negative (halfEven (n * tenTo scale) d) scale = some q ∨
      mantissaBound ≤ halfEven (n * tenTo scale) d ∧ ∃ shorter,
        trimZeros negative (halfEven (n * tenTo shorter) d) shorter = some q := by
  simp only [quotientAt] at h
  split at h
  · exact .inl h
  · next hround =>
    cases scale with
    | zero => cases h
    | succ shorter => exact .inr ⟨Nat.le_of_not_lt hround, shorter, h⟩

theorem le_of_mantissaBound_le (hd : 0 < d)
    (h : mantissaBound ≤ halfEven (n * tenTo maxScale) d) : d ≤ n := by
  have hbound := tenTo_maxScale_lt
  have hdiv : tenTo maxScale ≤ n * tenTo maxScale / d := by
    rcases halfEven_eq (n * tenTo maxScale) d with heq | heq <;> omega
  rw [Nat.le_div_iff_mul_le hd, Nat.mul_comm] at hdiv
  exact Nat.le_of_mul_le_mul_right hdiv (tenTo_pos maxScale)

theorem fitQuotient_some {q : Decimal} (hd : 0 < d) (h : fitQuotient negative n d = some q) :
    q.negative = negative ∧
      (q.mantissa * tenTo (maxScale - q.scale) = halfEven (n * tenTo maxScale) d ∨
        d ≤ n ∧ tenTo q.scale ≤ q.mantissa) := by
  obtain ⟨scale, hscale, hq⟩ := Option.bind_eq_some_iff.mp h
  obtain ⟨-, htop⟩ := quotientScale_some hscale
  have hshorter (hlong : mantissaBound ≤ n * tenTo maxScale / d) : d ≤ n :=
    le_of_mantissaBound_le hd (Nat.le_trans hlong (div_le_halfEven _ _))
  -- cut before the last digit, by its length or by rounding, it has a whole part
  rcases quotientAt_some hq with hq | ⟨hround, shorter, hq⟩
  · obtain ⟨hn, -, hm⟩ := trimZeros_some hq
    refine ⟨hn, ?_⟩
    rcases htop with rfl | hlong
    · exact .inl hm
    · exact .inr ⟨hshorter hlong, trimZeros_large hd (hshorter hlong) hq⟩
  · have hle : d ≤ n := by
      rcases htop with rfl | hlong
      · exact le_of_mantissaBound_le hd hround
      · exact hshorter hlong
    exact ⟨(trimZeros_some hq).1, .inr ⟨hle, trimZeros_large hd hle hq⟩⟩

/-- The quotient of two positive numbers, rounded to 28 digits, is at most half of the last of
`scale` digits. -/
def LostInQuotient (scale : Nat) (a b : Decimal) : Prop :=
  2 * halfEven (a.mantissa * tenTo (b.scale + maxScale)) (b.mantissa * tenTo a.scale) *
    tenTo scale ≤ tenTo maxScale

instance (scale : Nat) (a b : Decimal) : Decidable (LostInQuotient scale a b) := Nat.decLe _ _

/-- The number is at most half of the last of `scale` digits. -/
def Vanishes (scale : Nat) (q : Decimal) : Prop := 2 * q.mantissa * tenTo scale ≤ tenTo q.scale

theorem vanishes_iff {scale whole : Nat} {q : Decimal}
    (h : q.mantissa * tenTo (maxScale - q.scale) = whole) :
    Vanishes scale q ↔ 2 * whole * tenTo scale ≤ tenTo maxScale := by
  have hsplit : tenTo maxScale = tenTo q.scale * tenTo (maxScale - q.scale) := by
    rw [← tenTo_add, Nat.add_sub_cancel' q.scale_le]
  have hwhole : 2 * whole * tenTo scale =
      2 * q.mantissa * tenTo scale * tenTo (maxScale - q.scale) := by
    rw [← h]
    ac_rfl
  rw [Vanishes, hsplit, hwhole, Nat.mul_le_mul_right_iff (tenTo_pos _)]

theorem not_vanishes {scale : Nat} {q : Decimal} (h : tenTo q.scale ≤ q.mantissa) :
    ¬ Vanishes scale q := by
  have hpos := tenTo_pos q.scale
  have hle : 2 * q.mantissa ≤ 2 * q.mantissa * tenTo scale :=
    Nat.le_mul_of_pos_right _ (tenTo_pos scale)
  rw [Vanishes]
  omega

theorem div_exact {a b q : Decimal} (hb : b.mantissa ≠ 0) (hdvd : b.mantissa ∣ a.mantissa)
    (hm : q.mantissa = a.mantissa / b.mantissa * tenTo (b.scale - a.scale))
    (hs : q.scale = a.scale - b.scale) :
    q.mantissa * tenTo (maxScale - q.scale) =
      halfEven (a.mantissa * tenTo (b.scale + maxScale)) (b.mantissa * tenTo a.scale) := by
  obtain ⟨k, hk⟩ := hdvd
  have hpos : 0 < b.mantissa * tenTo a.scale := Nat.mul_pos (Nat.pos_of_ne_zero hb) (tenTo_pos _)
  have hquotient : a.mantissa / b.mantissa = k := by
    rw [hk, Nat.mul_div_cancel_left k (Nat.pos_of_ne_zero hb)]
  have hscale := a.scale_le
  obtain ⟨rest, hrest⟩ : ∃ rest, b.scale + maxScale = rest + a.scale :=
    ⟨b.scale + maxScale - a.scale, by omega⟩
  have hdigits : b.scale - a.scale + (maxScale - (a.scale - b.scale)) = rest := by omega
  have hnumerator : a.mantissa * tenTo (b.scale + maxScale) =
      k * tenTo rest * (b.mantissa * tenTo a.scale) := by
    rw [hk, hrest, tenTo_add]
    ac_rfl
  rw [hnumerator, halfEven_mul hpos, hm, hquotient, hs, Nat.mul_assoc, ← tenTo_add, hdigits]

theorem div_vanishes {a b q : Decimal} (ha : a.isPositive = true) (hb : b.isPositive = true)
    (h : a.div b = some q) :
    q.negative = false ∧ ∀ scale, Vanishes scale q ↔ LostInQuotient scale a b := by
  obtain ⟨hna, hma⟩ := isPositive_iff.mp ha
  obtain ⟨hnb, hmb⟩ := isPositive_iff.mp hb
  simp only [div, hma, hmb, hna, hnb, if_false, bne_self_eq_false] at h
  split at h
  · next hmod =>
    obtain ⟨hn, hm, hs⟩ := ofParts?_some h
    exact ⟨hn, fun scale =>
      vanishes_iff (div_exact hmb (Nat.dvd_of_mod_eq_zero hmod) hm hs)⟩
  · obtain ⟨r, hr, rfl⟩ := Option.map_eq_some_iff.mp h
    have hd : 0 < b.mantissa * tenTo a.scale := Nat.mul_pos (Nat.pos_of_ne_zero hmb) (tenTo_pos _)
    obtain ⟨hn, hdigits⟩ := fitQuotient_some hd hr
    refine ⟨dropZeroSign_negative hn, fun scale => ?_⟩
    have hnumerator : a.mantissa * tenTo (b.scale + maxScale) =
        a.mantissa * tenTo b.scale * tenTo maxScale := by
      rw [tenTo_add, Nat.mul_assoc]
    rw [LostInQuotient, hnumerator]
    rcases hdigits with hdigits | ⟨hle, hlarge⟩
    · exact vanishes_iff (q := r.dropZeroSign) hdigits
    · have hwhole := tenTo_le_halfEven hd hle maxScale
      refine iff_of_false (not_vanishes (q := r.dropZeroSign) hlarge) fun hlost => ?_
      have hscale := Nat.le_trans (Nat.le_mul_of_pos_right _ (tenTo_pos scale)) hlost
      have hpos := tenTo_pos maxScale
      omega

-- ---------------------------------------------------------------------------
-- Rounding to a scale
-- ---------------------------------------------------------------------------

theorem round_scale_le (q : Decimal) (places : Nat) : (q.round places).scale ≤ places := by
  unfold round
  split
  · assumption
  · split <;> exact Nat.le_refl _

theorem round_negative {q : Decimal} (h : q.negative = false) (places : Nat) :
    (q.round places).negative = false := by
  unfold round
  split
  · exact h
  · split
    · exact h
    · exact dropZeroSign_negative h

theorem round_mantissa_eq_zero (q : Decimal) (places : Nat) :
    (q.round places).mantissa = 0 ↔ Vanishes places q := by
  unfold round Vanishes
  split
  · next hs =>
    have hplaces := tenTo_le hs
    have hpos := tenTo_pos q.scale
    refine ⟨fun hzero => by simp [hzero], fun hle => ?_⟩
    rcases Nat.eq_zero_or_pos q.mantissa with hzero | hone
    · exact hzero
    · have hbig : 2 * tenTo places ≤ 2 * q.mantissa * tenTo places :=
        Nat.mul_le_mul_right _ (by omega)
      omega
  · next hs =>
    have hsplit : tenTo q.scale = tenTo (q.scale - places) * tenTo places := by
      rw [← tenTo_add, Nat.sub_add_cancel (Nat.le_of_not_le hs)]
    rw [hsplit, Nat.mul_le_mul_right_iff (tenTo_pos places), ← halfEven_eq_zero (tenTo_pos _)]
    split <;> rfl

theorem appendZeros_mantissa_eq_zero (count : Nat) (q : Decimal) :
    ((appendZeros count q).mantissa = 0 ↔ q.mantissa = 0) ∧
      (appendZeros count q).negative = q.negative := by
  induction count generalizing q with
  | zero => exact ⟨Iff.rfl, rfl⟩
  | succ count ih =>
    rw [appendZeros]
    split
    · obtain ⟨hm, hn⟩ := ih _
      refine ⟨hm.trans ?_, hn⟩
      dsimp only
      omega
    · exact ⟨Iff.rfl, rfl⟩

theorem rescale_isPositive {q : Decimal} {places : Nat} (h : q.scale ≤ places) :
    (q.rescale places).isPositive = q.isPositive := by
  obtain ⟨hm, hn⟩ := appendZeros_mantissa_eq_zero (places - q.scale) q
  rw [Bool.eq_iff_iff, isPositive_iff, isPositive_iff, rescale, dif_pos h, hn, ne_eq, hm]

end Decimal
end ExchangeDesk
