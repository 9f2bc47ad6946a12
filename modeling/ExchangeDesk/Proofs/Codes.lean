import ExchangeDesk.Proofs.Reachable

/-!
# Normal codes

A code that was parsed consists of three capital letters and is read back as
itself, so it can be asked for by its own text. All codes of the currencies in a
reachable book are such (`Reachable.codes_parse`, `Reachable.codes_normal`).
-/

namespace ExchangeDesk

variable {b : Book}

theorem Text.dropWhile_eq_self {cs : List Char} (h : ∀ c ∈ cs, isBlank c = false) :
    cs.dropWhile isBlank = cs := by
  cases cs with
  | nil => rfl
  | cons c rest => rw [List.dropWhile_cons_of_neg (by simp [h c List.mem_cons_self])]

theorem Text.trim_eq_self {cs : List Char} (h : ∀ c ∈ cs, isBlank c = false) : trim cs = cs := by
  rw [trim, trimStart, dropWhile_eq_self h, trimEnd, dropWhile_eq_self, List.reverse_reverse]
  intro c hc
  exact h c (List.mem_reverse.mp hc)

namespace CurrencyCode

def IsNormal (code : CurrencyCode) : Prop :=
  code.text.toList.length = 3 ∧ ∀ c ∈ code.text.toList, 'A' ≤ c ∧ c ≤ 'Z'

theorem isLetter_lt {c : Char} (h : isLetter c = true) : c.toNat < 128 := by
  simp only [isLetter, Bool.or_eq_true, Bool.and_eq_true, decide_eq_true_eq] at h
  rcases h with ⟨-, hz⟩ | ⟨-, hz⟩
  · exact Nat.lt_of_le_of_lt (Char.le_def.mp hz) (by decide)
  · exact Nat.lt_of_le_of_lt (Char.le_def.mp hz) (by decide)

/-- A property of all letters is checked on the first 128 characters. -/
theorem forall_letter {P : Char → Prop}
    (h : ∀ n < 128, isLetter (Char.ofNat n) = true → P (Char.ofNat n)) {c : Char}
    (hc : isLetter c = true) : P c := by
  have hlt := isLetter_lt hc
  rw [← Char.ofNat_toNat c] at hc ⊢
  exact h c.toNat hlt hc

theorem capital {c : Char} (h : isLetter c = true) :
    ('A' ≤ c.toUpper ∧ c.toUpper ≤ 'Z') ∧ isLetter c.toUpper = true ∧
      Text.isBlank c.toUpper = false ∧ c.toUpper.toUpper = c.toUpper :=
  forall_letter (P := fun c => ('A' ≤ c.toUpper ∧ c.toUpper ≤ 'Z') ∧
    isLetter c.toUpper = true ∧ Text.isBlank c.toUpper = false ∧
      c.toUpper.toUpper = c.toUpper) (by decide) h

theorem utf8ByteSize_letters {cs : List Char} (h : ∀ c ∈ cs, isLetter c = true) :
    (String.ofList cs).utf8ByteSize = cs.length := by
  induction cs with
  | nil => rfl
  | cons c rest ih =>
    obtain ⟨hc, hrest⟩ := List.forall_mem_cons.mp h
    have hone : c.utf8Size = 1 := by
      rw [Char.utf8Size_eq_one_iff, UInt32.le_iff_toNat_le]
      exact Nat.le_of_lt_succ (isLetter_lt hc)
    rw [String.ofList_cons, String.utf8ByteSize_append, String.utf8ByteSize_singleton, hone,
      ih hrest, List.length_cons, Nat.add_comm]

/-- Among texts of letters, three bytes are three characters. -/
theorem parse?_iff_trim {text : String} {code : CurrencyCode} : parse? text = some code ↔
    (Text.trim text.toList).length = 3 ∧ (∀ c ∈ Text.trim text.toList, isLetter c = true) ∧
      code = ⟨String.ofList ((Text.trim text.toList).map Char.toUpper)⟩ := by
  have hsize (h : ∀ c ∈ Text.trim text.toList, isLetter c = true) :=
    utf8ByteSize_letters h
  simp only [parse?, Option.ite_none_right_eq_some, Bool.and_eq_true, decide_eq_true_eq,
    List.all_eq_true, Option.some.injEq]
  constructor
  · rintro ⟨⟨hletters, hbytes⟩, hcode⟩
    exact ⟨(hsize hletters).symm.trans hbytes, hletters, hcode.symm⟩
  · rintro ⟨hlength, hletters, hcode⟩
    exact ⟨⟨hletters, (hsize hletters).trans hlength⟩, hcode.symm⟩

theorem parse?_some {text : String} {code : CurrencyCode} (h : parse? text = some code) :
    ∃ x y z, isLetter x = true ∧ isLetter y = true ∧ isLetter z = true ∧
      code = ⟨String.ofList [x.toUpper, y.toUpper, z.toUpper]⟩ := by
  obtain ⟨hlength, hletters, rfl⟩ := parse?_iff_trim.mp h
  obtain ⟨x, y, z, htrim⟩ := List.length_eq_three.mp hlength
  rw [htrim] at hletters ⊢
  exact ⟨x, y, z, hletters x (by simp), hletters y (by simp), hletters z (by simp), rfl⟩

theorem parse?_isNormal {text : String} {code : CurrencyCode} (h : parse? text = some code) :
    code.IsNormal := by
  obtain ⟨x, y, z, hx, hy, hz, rfl⟩ := parse?_some h
  simp [IsNormal, (capital hx).1, (capital hy).1, (capital hz).1]

theorem parse?_text {text : String} {code : CurrencyCode} (h : parse? text = some code) :
    parse? code.text = some code := by
  obtain ⟨x, y, z, hx, hy, hz, rfl⟩ := parse?_some h
  obtain ⟨-, hx, hxblank, hxupper⟩ := capital hx
  obtain ⟨-, hy, hyblank, hyupper⟩ := capital hy
  obtain ⟨-, hz, hzblank, hzupper⟩ := capital hz
  have htrim : Text.trim [x.toUpper, y.toUpper, z.toUpper] = [x.toUpper, y.toUpper, z.toUpper] :=
    Text.trim_eq_self (by simp [hxblank, hyblank, hzblank])
  simp [parse?_iff_trim, htrim, hx, hy, hz, hxupper, hyupper, hzupper]

theorem parse_iff {text : String} {code : CurrencyCode} :
    parse text = .ok code ↔ parse? text = some code := by
  unfold parse
  split
  · next h => simp [h]
  · next h => simp [h]

theorem parse_quotes {text : String} {e : DeskError} (h : parse text = .error e) :
    e = .invalidCurrencyCode text := by
  unfold parse at h
  split at h
  · cases h
  · exact (Except.error.inj h).symm

end CurrencyCode

theorem Book.storedCode_ok {code stored : CurrencyCode} (h : storedCode code = .ok stored) :
    CurrencyCode.parse stored.text = .ok stored := by
  unfold storedCode at h
  split at h
  · next hparse =>
    cases h
    exact CurrencyCode.parse_iff.mpr (CurrencyCode.parse?_text (CurrencyCode.parse_iff.mp hparse))
  · cases h

theorem Reachable.codes_parse (h : Reachable b) :
    ∀ c ∈ b.currencies, CurrencyCode.parse c.code.text = .ok c.code := by
  induction h with
  | empty => simp [Book.empty]
  | addCurrency _ hadd ih =>
    obtain ⟨code, hcode, -, -, rfl⟩ := Book.addCurrency_ok hadd
    rw [List.forall_mem_append]
    exact ⟨ih, by simpa using Book.storedCode_ok hcode⟩
  | addCashier _ hadd ih =>
    obtain ⟨-, rfl⟩ := Book.addCashier_ok hadd
    exact ih
  | addAccount _ hadd ih =>
    obtain ⟨_, -, -, rfl⟩ := Book.addAccount_ok hadd
    exact ih
  | insertRate _ _ ih => exact ih
  | replaceRate _ hreplace ih =>
    rw [Book.replaceRate_ok hreplace]
    exact ih
  | replaceExchange _ hreplace ih =>
    rw [Book.replaceExchange_ok hreplace]
    exact ih
  | deleteExchange _ _ ih => exact ih
  | draw _ ih => exact ih
  | commit _ _ _ hcommit ih =>
    obtain ⟨-, rfl⟩ := Book.commit_ok.mp hcommit
    exact ih

theorem Reachable.codes_normal (h : Reachable b) : ∀ c ∈ b.currencies, c.code.IsNormal :=
  fun c hc => CurrencyCode.parse?_isNormal (CurrencyCode.parse_iff.mp (h.codes_parse c hc))

end ExchangeDesk
