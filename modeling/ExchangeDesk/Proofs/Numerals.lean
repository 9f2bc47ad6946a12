import Mathlib.Algebra.Group.Nat.Defs
import ExchangeDesk.Calendar.Reader
import ExchangeDesk.Decimal.Printer
import ExchangeDesk.Decimal.Reader
import ExchangeDesk.Proofs.Checks
import ExchangeDesk.Proofs.Decimal

/-!
# Numbers, decimals and dates are read as written

Reading the text of a date gives the date, and reading the text of a decimal gives the
decimal, except that a zero loses its sign. Digits are read from the left; what was read
of a run of digits is `Nat.ofDigitChars` of it.
-/

namespace ExchangeDesk

-- ---------------------------------------------------------------------------
-- Digits
-- ---------------------------------------------------------------------------

namespace Text

variable {c : Char} {cs ds rest : List Char} {n width : Nat}

theorem isDigit_eq (c : Char) : isDigit c = c.isDigit := by
  simp only [isDigit, Char.isDigit, Char.le_def]

def AllDigits (cs : List Char) : Prop := ∀ c ∈ cs, isDigit c = true

theorem toDigits_allDigits (n : Nat) : AllDigits (Nat.toDigits 10 n) := fun c hc => by
  rw [isDigit_eq]
  exact Nat.isDigit_of_mem_toDigits (by decide) (by decide) hc

theorem padded_allDigits (width n : Nat) : AllDigits (padded width n) := by
  intro c hc
  rcases List.mem_append.mp hc with hc | hc
  · rw [List.eq_of_mem_replicate hc]
    rfl
  · exact toDigits_allDigits n c hc

theorem ofDigits_eq (ds : List Char) : ofDigits ds = Nat.ofDigitChars 10 ds 0 := by
  simp only [ofDigits, Nat.ofDigitChars, Nat.mul_comm _ 10]
  rfl

theorem ofDigitChars_cons (c : Char) (ds : List Char) (n : Nat) :
    Nat.ofDigitChars 10 (c :: ds) n = Nat.ofDigitChars 10 ds (n * 10 + digitValue c) := by
  rw [Nat.ofDigitChars_cons, Nat.mul_comm]
  rfl

theorem ofDigitChars_padded (width n : Nat) : Nat.ofDigitChars 10 (padded width n) 0 = n := by
  rw [padded, Nat.ofDigitChars_append, Nat.ofDigitChars_replicate_zero, Nat.mul_zero,
    Nat.ofDigitChars_toDigits (by decide) (by decide)]

theorem ofDigits_padded (width n : Nat) : ofDigits (padded width n) = n := by
  rw [ofDigits_eq, ofDigitChars_padded]

theorem width_le_padded (width n : Nat) : width ≤ (padded width n).length := by
  simp only [padded, List.length_append, List.length_replicate]
  omega

theorem length_padded (hwidth : 0 < width) (hn : n < 10 ^ width) :
    (padded width n).length = width := by
  have hdigits : (Nat.toDigits 10 n).length ≤ width :=
    (Nat.length_toDigits_le_iff (by decide) hwidth).mpr hn
  simp only [padded, List.length_append, List.length_replicate]
  omega

theorem le_ofDigitChars (ds : List Char) (n : Nat) : n ≤ Nat.ofDigitChars 10 ds n := by
  induction ds generalizing n with
  | nil => exact Nat.le_of_eq Nat.ofDigitChars_nil.symm
  | cons c ds ih =>
    rw [ofDigitChars_cons]
    exact Nat.le_trans (by omega) (ih _)

/-- A run of digits ends where the text goes on with something else. -/
def NoDigit (rest : List Char) : Prop := ∀ c ∈ rest.head?, isDigit c = false

theorem takeWhile_digits (hds : AllDigits ds) (hrest : NoDigit rest) :
    (ds ++ rest).takeWhile isDigit = ds := by
  rw [List.takeWhile_append_of_pos hds]
  cases rest with
  | nil => simp
  | cons c rest => simp [hrest c rfl]

theorem dropWhile_digits (hds : AllDigits ds) (hrest : NoDigit rest) :
    (ds ++ rest).dropWhile isDigit = rest := by
  rw [List.dropWhile_append_of_pos hds]
  cases rest with
  | nil => simp
  | cons c rest => simp [hrest c rfl]

theorem isDigit_iff : isDigit c = true ↔ 48 ≤ c.toNat ∧ c.toNat ≤ 57 := by
  simp only [isDigit, Bool.and_eq_true, decide_eq_true_eq, Char.le_def, UInt32.le_iff_toNat_le]
  rfl

theorem ne_of_isDigit (hc : isDigit c = true) {d : Char} (hd : isDigit d = false) : c ≠ d := by
  rintro rfl
  rw [hc] at hd
  cases hd

theorem isBlank_of_isDigit (h : isDigit c = true) : isBlank c = false := by
  obtain ⟨hlow, hhigh⟩ := isDigit_iff.mp h
  simp only [isBlank, Bool.or_eq_false_iff, Bool.and_eq_false_iff, decide_eq_false_iff_not]
  omega

theorem trimStart_of_head (h : ∀ c ∈ cs.head?, isBlank c = false) : trimStart cs = cs := by
  cases cs with
  | nil => rfl
  | cons c rest => simp [trimStart, h c rfl]

theorem trimStart_digits (hds : AllDigits ds) (hne : ds ≠ []) :
    trimStart (ds ++ rest) = ds ++ rest := by
  obtain ⟨c, ds, rfl⟩ := List.exists_cons_of_ne_nil hne
  refine trimStart_of_head fun c' hc' => ?_
  obtain rfl : c = c' := by simpa using hc'
  exact isBlank_of_isDigit (hds c List.mem_cons_self)

theorem padded_ne_nil (hwidth : 0 < width) (n : Nat) : padded width n ≠ [] := by
  have := width_le_padded width n
  exact List.ne_nil_of_length_pos (by omega)

end Text

-- ---------------------------------------------------------------------------
-- Decimals
-- ---------------------------------------------------------------------------

namespace Decimal

open Text (AllDigits isDigit)

theorem readDigits_run (started fraction : Bool) {d : Decimal} {ds : List Char}
    (hds : AllDigits ds) (rest : List Char) (hm : Nat.ofDigitChars 10 ds d.mantissa < mantissaBound)
    (hs : d.scale + fraction.toNat * ds.length ≤ maxScale) :
    readDigits started fraction d (ds ++ rest) =
      readDigits (started || !ds.isEmpty) fraction
        ⟨d.negative, Nat.ofDigitChars 10 ds d.mantissa,
          d.scale + fraction.toNat * ds.length, hm, hs⟩
        rest := by
  induction ds generalizing started d with
  | nil => simp [Nat.ofDigitChars_nil]
  | cons c ds ih =>
    obtain ⟨hc, hds⟩ := List.forall_mem_cons.mp hds
    have hvalue := Text.ofDigitChars_cons c ds d.mantissa
    have hpush : d.mantissa * 10 + Text.digitValue c < mantissaBound ∧
        d.scale + fraction.toNat ≤ maxScale := by
      refine ⟨Nat.lt_of_le_of_lt (Text.le_ofDigitChars ds _) (hvalue ▸ hm), ?_⟩
      rw [List.length_cons, Nat.mul_succ] at hs
      omega
    have hscale : d.scale + fraction.toNat * (c :: ds).length =
        d.scale + fraction.toNat + fraction.toNat * ds.length := by
      rw [List.length_cons, Nat.mul_succ]
      omega
    simp only [hvalue, hscale] at hm hs ⊢
    have hdigit : Text.digit? c = some (Text.digitValue c) := by simp [Text.digit?, hc]
    simp only [List.cons_append, readDigits, hdigit, push, hpush, and_self, dite_true]
    rw [ih true (d := ⟨d.negative, _, _, hpush.1, hpush.2⟩) hds hm hs]
    simp

theorem magnitudeText_cases (mantissa scale : Nat) :
    (scale = 0 ∧ magnitudeText mantissa scale = Text.padded 1 mantissa) ∨
    ∃ whole fraction, AllDigits whole ∧ AllDigits fraction ∧ whole ≠ [] ∧
      fraction.length = scale ∧ whole ++ fraction = Text.padded (scale + 1) mantissa ∧
      magnitudeText mantissa scale = whole ++ '.' :: fraction := by
  rcases Nat.eq_zero_or_pos scale with rfl | hscale
  · exact .inl ⟨rfl, rfl⟩
  · have hdigits := Text.padded_allDigits (scale + 1) mantissa
    have hlength := Text.width_le_padded (scale + 1) mantissa
    generalize hpadded : Text.padded (scale + 1) mantissa = digits at hdigits hlength
    refine .inr ⟨digits.take (digits.length - scale), digits.drop (digits.length - scale),
      fun c hc => hdigits c (List.mem_of_mem_take hc),
      fun c hc => hdigits c (List.mem_of_mem_drop hc), ?_, ?_, List.take_append_drop .., ?_⟩
    · refine List.ne_nil_of_length_pos ?_
      rw [List.length_take]
      omega
    · rw [List.length_drop]
      omega
    · simp only [magnitudeText, hpadded, if_neg (Nat.ne_of_gt hscale)]

theorem readDigits_point (d : Decimal) (rest : List Char) :
    readDigits true false d ('.' :: rest) = readDigits true true d rest := rfl

theorem readDigits_magnitude (d : Decimal) :
    readDigits false false ⟨d.negative, 0, 0, by decide, by decide⟩
      (magnitudeText d.mantissa d.scale) = .ok d := by
  obtain ⟨negative, mantissa, scale, hmantissa, hscale⟩ := d
  rcases magnitudeText_cases mantissa scale with
    ⟨rfl, htext⟩ | ⟨whole, fraction, hwhole, hfraction, hne, rfl, hdigits, htext⟩
  · have hvalue := Text.ofDigitChars_padded 1 mantissa
    have hrun := readDigits_run false false (d := ⟨negative, 0, 0, by decide, by decide⟩)
      (Text.padded_allDigits 1 mantissa) [] (by rwa [hvalue]) (by simp)
    rw [List.append_nil] at hrun
    rw [htext, hrun]
    simp [readDigits, hvalue, Text.padded_ne_nil]
  · have hvalue := Text.ofDigitChars_padded (fraction.length + 1) mantissa
    rw [← hdigits, Nat.ofDigitChars_append] at hvalue
    have hwholeFits : Nat.ofDigitChars 10 whole 0 < mantissaBound :=
      Nat.lt_of_le_of_lt (Text.le_ofDigitChars fraction _) (hvalue ▸ hmantissa)
    have hrunWhole := readDigits_run false false (d := ⟨negative, 0, 0, by decide, by decide⟩)
      hwhole ('.' :: fraction) hwholeFits (by simp)
    have hrunFraction := readDigits_run true true
      (d := ⟨negative, Nat.ofDigitChars 10 whole 0, 0, hwholeFits, by decide⟩) hfraction []
      (by rwa [hvalue]) (by simpa using hscale)
    rw [List.append_nil] at hrunFraction
    have hstarted : (false || !whole.isEmpty) = true := by simpa using hne
    simp only [hstarted, Bool.toNat_false, Nat.zero_mul, Nat.add_zero] at hrunWhole
    rw [htext, hrunWhole, readDigits_point, hrunFraction]
    simp [readDigits, hvalue]

theorem magnitudeText_head (mantissa scale : Nat) :
    ∃ c rest, isDigit c = true ∧ magnitudeText mantissa scale = c :: rest := by
  rcases magnitudeText_cases mantissa scale with
    ⟨-, htext⟩ | ⟨whole, fraction, hwhole, -, hne, -, -, htext⟩
  · obtain ⟨c, rest, hpadded⟩ := List.exists_cons_of_ne_nil (Text.padded_ne_nil Nat.one_pos mantissa)
    refine ⟨c, rest, ?_, htext.trans hpadded⟩
    exact Text.padded_allDigits 1 mantissa c (hpadded ▸ List.mem_cons_self)
  · obtain ⟨c, rest, rfl⟩ := List.exists_cons_of_ne_nil hne
    exact ⟨c, rest ++ '.' :: fraction, hwhole c List.mem_cons_self, htext⟩

theorem readPlainChars_chars (d : Decimal) : readPlainChars d.chars = .ok d.dropZeroSign := by
  have hmagnitude := readDigits_magnitude d
  cases hn : d.negative with
  | true =>
    have hchars : d.chars = '-' :: magnitudeText d.mantissa d.scale := by simp [chars, hn]
    rw [hn] at hmagnitude
    rw [hchars]
    show (readDigits false false (-zero) _).map dropZeroSign = _
    exact congrArg (Except.map dropZeroSign) hmagnitude
  | false =>
    have hchars : d.chars = magnitudeText d.mantissa d.scale := by simp [chars, hn]
    have hsign : d.dropZeroSign = d := by
      cases d
      simp_all [dropZeroSign]
    obtain ⟨c, rest, hc, htext⟩ := magnitudeText_head d.mantissa d.scale
    have hnosign {sign : Char} (hs : isDigit sign = false) (rest' : List Char) :
        magnitudeText d.mantissa d.scale ≠ sign :: rest' := fun h =>
      Text.ne_of_isDigit hc hs (List.cons.inj (htext ▸ h)).1
    rw [hn] at hmagnitude
    rw [hchars, hsign, readPlainChars]
    · exact hmagnitude
    · rw [htext]
      simp
    · exact hnosign (by decide)
    · exact hnosign (by decide)

/-- A decimal is read as it was written, but for the sign of a zero. -/
theorem read_text (d : Decimal) : read d.text = .ok d.dropZeroSign := by
  rw [read, text, String.toList_ofList, readChars, readPlainChars_chars]

theorem dropZeroSign_of_ne {d : Decimal} (h : d.mantissa ≠ 0) : d.dropZeroSign = d := by
  cases d
  simp_all [dropZeroSign]

theorem dropZeroSign_signed (d : Decimal) : d.dropZeroSign.signed = d.signed := by
  by_cases h : d.mantissa = 0
  · simp [signed, dropZeroSign, h]
  · rw [dropZeroSign_of_ne h]

theorem dropZeroSign_beq (d : Decimal) : (d.dropZeroSign == d) = true := by
  show decide (d.dropZeroSign.signed * tenTo d.scale = d.signed * tenTo d.scale) = true
  rw [dropZeroSign_signed]
  exact decide_eq_true rfl

end Decimal

-- ---------------------------------------------------------------------------
-- Dates
-- ---------------------------------------------------------------------------

namespace Date

open Text (AllDigits NoDigit isDigit padded)

theorem readNumber_padded {limit : Option Nat} {width n : Nat} {rest : List Char}
    (hwidth : 0 < width) (hlimit : ∀ k ∈ limit, (padded width n).length ≤ k)
    (hn : n < numberBound) (hrest : NoDigit rest) :
    readNumber limit (padded width n ++ rest) = .ok (n, rest) := by
  have hrun := Text.takeWhile_digits (Text.padded_allDigits width n) hrest
  have hne := Text.padded_ne_nil hwidth n
  cases limit with
  | none => simp [readNumber, hrun, hne, Text.ofDigits_padded, hn]
  | some k =>
    have htake : (padded width n).take k = padded width n := List.take_of_length_le (hlimit k rfl)
    simp [readNumber, hrun, htake, hne, Text.ofDigits_padded, hn]

theorem readPart_padded {limit n : Nat} {rest : List Char} (hlow : 1 ≤ n) (hhigh : n ≤ limit)
    (hlimit : limit < 100) (hrest : NoDigit rest) :
    readPart limit (padded 2 n ++ rest) = .ok (n, rest) := by
  have htrim : Text.trimStart (padded 2 n ++ rest) = padded 2 n ++ rest :=
    Text.trimStart_digits (Text.padded_allDigits 2 n) (Text.padded_ne_nil (by decide) n)
  have hlength : (padded 2 n).length = 2 := Text.length_padded (by decide) (by omega)
  have hnumber : readNumber (some 2) (padded 2 n ++ rest) = .ok (n, rest) := by
    refine readNumber_padded (by decide) ?_ (by simp only [numberBound]; omega) hrest
    rintro k ⟨⟩
    exact Nat.le_of_eq hlength
  rw [readPart, htrim, bind_ok]
  exact ⟨(n, rest), hnumber, if_pos ⟨hlow, hhigh⟩⟩

theorem checkYear_ok {year : Int} (h : -262143 ≤ year ∧ year ≤ 262142) :
    checkYear year = .ok year :=
  if_pos (by omega)

theorem readYear_plain {n : Nat} (hn : n ≤ 9999) {rest : List Char} (hrest : NoDigit rest) :
    readYear (padded 4 n ++ rest) = .ok ((n : Int), rest) := by
  have hlength : (padded 4 n).length = 4 := Text.length_padded (by decide) (by omega)
  have hnumber : readNumber (some 4) (padded 4 n ++ rest) = .ok (n, rest) := by
    refine readNumber_padded (by decide) ?_ (by simp only [numberBound]; omega) hrest
    rintro k ⟨⟩
    exact Nat.le_of_eq hlength
  have hdigits := Text.padded_allDigits 4 n
  obtain ⟨c, cs, hpadded⟩ := List.exists_cons_of_ne_nil
    (Text.padded_ne_nil (by decide) n : padded 4 n ≠ [])
  have hc : isDigit c = true := hdigits c (hpadded ▸ List.mem_cons_self)
  rw [readYear, Text.trimStart_digits hdigits (by simp [hpadded])]
  rw [hpadded, List.cons_append] at hnumber ⊢
  split
  · next heq => exact absurd (List.cons.inj heq).1 (Text.ne_of_isDigit hc (by decide))
  · next heq => exact absurd (List.cons.inj heq).1 (Text.ne_of_isDigit hc (by decide))
  · simp only [hnumber, bind_ok]
    exact ⟨_, rfl, n, checkYear_ok (by omega), rfl⟩

theorem readYear_signed {year : Int} (h : -262143 ≤ year ∧ year ≤ 262142) {rest : List Char}
    (hrest : NoDigit rest) :
    readYear ((if year < 0 then '-' else '+') :: (padded 4 year.natAbs ++ rest)) =
      .ok (year, rest) := by
  have hnumber : readNumber none (padded 4 year.natAbs ++ rest) = .ok (year.natAbs, rest) :=
    readNumber_padded (by decide) (by simp) (by simp only [numberBound]; omega) hrest
  by_cases hnegative : year < 0
  · have hyear : -(year.natAbs : Int) = year := by omega
    rw [if_pos hnegative, readYear, Text.trimStart_of_head (by simp; decide)]
    simp only [hnumber, bind_ok]
    exact ⟨_, rfl, year, by rw [hyear, checkYear_ok h], rfl⟩
  · have hyear : (year.natAbs : Int) = year := by omega
    rw [if_neg hnegative, readYear, Text.trimStart_of_head (by simp; decide)]
    simp only [hnumber, bind_ok]
    exact ⟨_, rfl, year, by rw [hyear, checkYear_ok h], rfl⟩

theorem readYear_chars {year : Int} (h : -262143 ≤ year ∧ year ≤ 262142) {rest : List Char}
    (hrest : NoDigit rest) : readYear (yearChars year ++ rest) = .ok (year, rest) := by
  by_cases hplain : 0 ≤ year ∧ year ≤ 9999
  · have hyear : (year.natAbs : Int) = year := Int.natAbs_of_nonneg hplain.1
    rw [yearChars, if_pos hplain, readYear_plain (by omega) hrest, hyear]
  · rw [yearChars, if_neg hplain, List.cons_append]
    exact readYear_signed h hrest

theorem readDash_loose (rest : List Char) : readDash .loose ('-' :: rest) = .ok rest := rfl

theorem noDigit_dash (rest : List Char) : NoDigit ('-' :: rest) := by
  rintro c ⟨⟩
  decide

theorem read_text (d : Date) : read .loose d.text = .ok d := by
  obtain ⟨year, month, day, hdate⟩ := d
  obtain ⟨hyear, hmonth, hday⟩ := hdate
  have hmonthDays := daysInMonth_le year month
  rw [read, text, String.toList_ofList, readChars]
  simp only [chars, bind_ok, List.append_assoc, List.cons_append]
  refine ⟨_, readYear_chars hyear (noDigit_dash _), _, readDash_loose _, _,
    readPart_padded hmonth.1 hmonth.2 (by decide) (noDigit_dash _), _, readDash_loose _, ?_⟩
  refine ⟨(day, []), ?_, ?_⟩
  · have hpart : readPart 31 (padded 2 day ++ []) = .ok (day, []) :=
      readPart_padded hday.1 (by omega) (by decide) (by simp [NoDigit])
    rwa [List.append_nil] at hpart
  · have hparts : ofParts? year month day = some ⟨year, month, day, hyear, hmonth, hday⟩ :=
      dif_pos ⟨hyear, hmonth, hday⟩
    have hend : skipLoose .loose [] = [] := rfl
    simp only [hend, hparts]

end Date
end ExchangeDesk
