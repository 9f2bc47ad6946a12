import ExchangeDesk.Proofs.Codes

/-!
# The grammar of codes

A text is read as a code exactly if it is three ASCII letters with nothing but blanks before and
after them (`CurrencyCode.Written`). The reader counts the bytes between the blanks and then looks
at the characters; that this comes to the same is said once, by `CurrencyCode.written_iff_trim`.
The letters are found again in the code as capitals, so texts give one code if their letters differ
in case only (`CurrencyCode.parse_written`).
-/

namespace ExchangeDesk

-- ---------------------------------------------------------------------------
-- Blanks at both ends
-- ---------------------------------------------------------------------------

namespace Text

variable {before middle after : List Char}

theorem trim_frame (cs : List Char) : ∃ before after, cs = before ++ trim cs ++ after ∧
    (∀ c ∈ before, isBlank c = true) ∧ ∀ c ∈ after, isBlank c = true := by
  refine ⟨cs.takeWhile isBlank, ((trimStart cs).reverse.takeWhile isBlank).reverse, ?_, ?_, ?_⟩
  · have hend : trim cs ++ ((trimStart cs).reverse.takeWhile isBlank).reverse = trimStart cs := by
      rw [trim, trimEnd, ← List.reverse_append, List.takeWhile_append_dropWhile,
        List.reverse_reverse]
    rw [List.append_assoc, hend, trimStart, List.takeWhile_append_dropWhile]
  · exact List.all_eq_true.mp List.all_takeWhile
  · intro c hc
    exact List.all_eq_true.mp List.all_takeWhile c (List.mem_reverse.mp hc)

theorem trim_framed (hbefore : ∀ c ∈ before, isBlank c = true)
    (hafter : ∀ c ∈ after, isBlank c = true) (hmiddle : ∀ c ∈ middle, isBlank c = false)
    (hne : middle ≠ []) : trim (before ++ middle ++ after) = middle := by
  have hstart : trimStart (before ++ middle ++ after) = middle ++ after := by
    obtain ⟨c, rest, rfl⟩ := List.exists_cons_of_ne_nil hne
    have hc : isBlank c = false := hmiddle c List.mem_cons_self
    rw [trimStart, List.append_assoc, List.dropWhile_append_of_pos hbefore, List.cons_append,
      List.dropWhile_cons_of_neg (by simp [hc])]
  have hafter' : ∀ c ∈ after.reverse, isBlank c = true :=
    fun c hc => hafter c (List.mem_reverse.mp hc)
  have hmiddle' : ∀ c ∈ middle.reverse, isBlank c = false :=
    fun c hc => hmiddle c (List.mem_reverse.mp hc)
  rw [trim, hstart, trimEnd, List.reverse_append, List.dropWhile_append_of_pos hafter',
    dropWhile_eq_self hmiddle', List.reverse_reverse]

end Text

namespace CurrencyCode

variable {text text' : String} {letters letters' : List Char} {code : CurrencyCode} {c : Char}

-- ---------------------------------------------------------------------------
-- Letters
-- ---------------------------------------------------------------------------

theorem isLetter_eq (c : Char) : isLetter c = c.isAlpha := by
  have hupper : c.isUpper = ('A' ≤ c && c ≤ 'Z') := Bool.decide_and ..
  have hlower : c.isLower = ('a' ≤ c && c ≤ 'z') := rfl
  rw [isLetter, ← hlower, ← hupper, Bool.or_comm]
  rfl

theorem isBlank_letter (h : isLetter c = true) : Text.isBlank c = false :=
  forall_letter (P := fun c => Text.isBlank c = false) (by decide) h

theorem toLower_toUpper (h : isLetter c = true) : c.toUpper.toLower = c.toLower :=
  forall_letter (P := fun c => c.toUpper.toLower = c.toLower) (by decide) h

theorem toUpper_toLower (h : isLetter c = true) : c.toLower.toUpper = c.toUpper :=
  forall_letter (P := fun c => c.toLower.toUpper = c.toUpper) (by decide) h

theorem toUpper_eq_iff (hletters : ∀ c ∈ letters, isLetter c = true)
    (hletters' : ∀ c ∈ letters', isLetter c = true) :
    letters'.map Char.toUpper = letters.map Char.toUpper ↔
      letters'.map Char.toLower = letters.map Char.toLower := by
  have hlower {cs : List Char} (h : ∀ c ∈ cs, isLetter c = true) :
      (cs.map Char.toUpper).map Char.toLower = cs.map Char.toLower := by
    rw [List.map_map]
    exact List.map_congr_left fun c hc => toLower_toUpper (h c hc)
  have hupper {cs : List Char} (h : ∀ c ∈ cs, isLetter c = true) :
      (cs.map Char.toLower).map Char.toUpper = cs.map Char.toUpper := by
    rw [List.map_map]
    exact List.map_congr_left fun c hc => toUpper_toLower (h c hc)
  constructor
  · intro h
    rw [← hlower hletters', ← hlower hletters, h]
  · intro h
    rw [← hupper hletters', ← hupper hletters, h]

-- ---------------------------------------------------------------------------
-- Texts of codes
-- ---------------------------------------------------------------------------

/-- The text is the letters, three of them, with blanks around. -/
structure Written (text : String) (letters : List Char) : Prop where
  framed : ∃ before after, text.toList = before ++ letters ++ after ∧
    (∀ c ∈ before, Text.isBlank c = true) ∧ ∀ c ∈ after, Text.isBlank c = true
  three : letters.length = 3
  ascii : ∀ c ∈ letters, c.isAlpha = true

def ofLetters (letters : List Char) : CurrencyCode := ⟨String.ofList (letters.map Char.toUpper)⟩

theorem written_iff_trim : Written text letters ↔ Text.trim text.toList = letters ∧
    letters.length = 3 ∧ ∀ c ∈ letters, isLetter c = true := by
  constructor
  · rintro ⟨⟨before, after, htext, hbefore, hafter⟩, hlength, hascii⟩
    have hletters : ∀ c ∈ letters, isLetter c = true := fun c hc => isLetter_eq c ▸ hascii c hc
    refine ⟨?_, hlength, hletters⟩
    rw [htext]
    refine Text.trim_framed hbefore hafter (fun c hc => isBlank_letter (hletters c hc)) ?_
    rintro rfl
    cases hlength
  · rintro ⟨rfl, hlength, hletters⟩
    exact ⟨Text.trim_frame _, hlength, fun c hc => isLetter_eq c ▸ hletters c hc⟩

theorem parse?_iff_written : parse? text = some code ↔
    ∃ letters, Written text letters ∧ code = ofLetters letters := by
  rw [parse?_iff_trim]
  constructor
  · rintro ⟨hlength, hletters, hcode⟩
    exact ⟨_, written_iff_trim.mpr ⟨rfl, hlength, hletters⟩, hcode⟩
  · rintro ⟨letters, hwritten, hcode⟩
    obtain ⟨rfl, hlength, hletters⟩ := written_iff_trim.mp hwritten
    exact ⟨hlength, hletters, hcode⟩

theorem Written.parse (h : Written text letters) : parse text = .ok (ofLetters letters) :=
  parse_iff.mpr (parse?_iff_written.mpr ⟨letters, h, rfl⟩)

theorem ofLetters_inj : ofLetters letters' = ofLetters letters ↔
    letters'.map Char.toUpper = letters.map Char.toUpper := by
  rw [ofLetters, ofLetters, mk.injEq, String.ofList_inj]

/-- A text parses exactly if it is three ASCII letters between blanks (`Written`), to these letters
in capitals; the error for any other quotes it unchanged. A parsed code parses to itself, and two
texts parse alike exactly if their letters agree up to case. -/
theorem parse_written (text : String) :
    (∀ code, CurrencyCode.parse text = .ok code ↔
      ∃ letters, Written text letters ∧ code = ⟨String.ofList (letters.map Char.toUpper)⟩) ∧
    (∀ e, CurrencyCode.parse text = .error e ↔
      (¬ ∃ letters, Written text letters) ∧ e = .invalidCurrencyCode text) ∧
    (∀ code, CurrencyCode.parse text = .ok code → CurrencyCode.parse code.text = .ok code) ∧
    ∀ letters, Written text letters → ∀ text' letters', Written text' letters' →
      (CurrencyCode.parse text' = CurrencyCode.parse text ↔
        letters'.map Char.toLower = letters.map Char.toLower) := by
  refine ⟨fun code => parse_iff.trans parse?_iff_written, fun e => ?_, fun code h => ?_, ?_⟩
  · constructor
    · intro h
      refine ⟨fun ⟨letters, hwritten⟩ => ?_, parse_quotes h⟩
      rw [hwritten.parse] at h
      cases h
    · rintro ⟨hnone, rfl⟩
      cases hparse : CurrencyCode.parse text with
      | ok code =>
        obtain ⟨letters, hwritten, -⟩ := parse?_iff_written.mp (parse_iff.mp hparse)
        exact absurd ⟨letters, hwritten⟩ hnone
      | error e => rw [parse_quotes hparse]
  · exact parse_iff.mpr (parse?_text (parse_iff.mp h))
  · intro letters h text' letters' h'
    obtain ⟨-, -, hletters⟩ := written_iff_trim.mp h
    obtain ⟨-, -, hletters'⟩ := written_iff_trim.mp h'
    rw [h.parse, h'.parse, Except.ok.injEq, ofLetters_inj, toUpper_eq_iff hletters hletters']

/-- Blanks of three bytes are no part of a code, and one character of three bytes is none. -/
example : parse "\u2003uSd\u3000" = .ok ⟨"USD"⟩ ∧
    parse "€" = .error (.invalidCurrencyCode "€") := by decide

end CurrencyCode
end ExchangeDesk
