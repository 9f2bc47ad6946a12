import Mathlib.Data.List.Forall2
import ExchangeDesk.Json.Printer
import ExchangeDesk.Json.Reader
import ExchangeDesk.Proofs.Numerals

/-!
# JSON is read as written

`ReadsAs cs j`: wherever the text `cs` stands, the reader finds the value `j` there and
goes on behind it. There is one rule for each form of value, whatever blanks stand
between its parts, so both layouts of the printer give texts that are read as the value
that was written (`read_compact`, `read_pretty`).
-/

namespace ExchangeDesk.Json

open Text (AllDigits NoDigit isDigit)

variable {c : Char} {b b' cs rest : List Char} {j : Json} {n : Nat}

-- ---------------------------------------------------------------------------
-- Blanks and ends
-- ---------------------------------------------------------------------------

def Blank (cs : List Char) : Prop := ∀ c ∈ cs, isSpace c = true

theorem skipSpace_blank (hb : Blank b) : skipSpace (b ++ cs) = skipSpace cs :=
  List.dropWhile_append_of_pos hb

theorem skipSpace_cons (h : isSpace c = false) : skipSpace (c :: rest) = c :: rest := by
  simp [skipSpace, h]

theorem skipSpace_idem (cs : List Char) : skipSpace (skipSpace cs) = skipSpace cs := by
  induction cs with
  | nil => rfl
  | cons c rest ih =>
    cases hc : isSpace c with
    | true =>
      have hskip : skipSpace (c :: rest) = skipSpace rest := List.dropWhile_cons_of_pos hc
      rw [hskip, ih]
    | false => rw [skipSpace_cons hc, skipSpace_cons hc]

theorem readValue_skipSpace (fuel : Nat) (cs : List Char) :
    readValue fuel (skipSpace cs) = readValue fuel cs := by
  cases fuel with
  | zero => rw [readValue, readValue]
  | succ fuel => rw [readValue, readValue, skipSpace_idem]

theorem readValue_blank (hb : Blank b) (fuel : Nat) :
    readValue fuel (b ++ cs) = readValue fuel cs := by
  cases fuel with
  | zero => rw [readValue, readValue]
  | succ fuel => rw [readValue, readValue, skipSpace_blank hb]

/-- The text does not continue a numeral. -/
def Separated (rest : List Char) : Prop :=
  ∀ c ∈ rest.head?, isDigit c = false ∧ c ≠ '.' ∧ c ≠ 'e' ∧ c ≠ 'E'

theorem separated_nil : Separated [] := by simp [Separated]

theorem separated_blank (hb : Blank b) (h : Separated rest) : Separated (b ++ rest) := by
  cases b with
  | nil => exact h
  | cons c b =>
    rintro _ ⟨⟩
    have hc : isSpace c = true := hb c List.mem_cons_self
    simp only [isSpace, Bool.or_eq_true, decide_eq_true_eq] at hc
    rcases hc with ((rfl | rfl) | rfl) | rfl <;> decide

theorem separated_cons (h : isDigit c = false) (h' : c ≠ '.') (he : c ≠ 'e') (hE : c ≠ 'E') :
    Separated (c :: rest) := by
  rintro _ ⟨⟩
  exact ⟨h, h', he, hE⟩

def ReadsAs (cs : List Char) (j : Json) : Prop :=
  ∀ fuel rest, cs.length < fuel → Separated rest → readValue fuel (cs ++ rest) = some (j, rest)

theorem ReadsAs.of_fuel (h : ∀ fuel rest, cs.length ≤ fuel → Separated rest →
    readValue (fuel + 1) (cs ++ rest) = some (j, rest)) : ReadsAs cs j := by
  intro fuel rest hfuel hrest
  cases fuel with
  | zero => exact absurd hfuel (Nat.not_lt_zero _)
  | succ fuel => exact h fuel rest (Nat.le_of_lt_succ hfuel) hrest

theorem ReadsAs.readChars (h : ReadsAs cs j) : readChars cs = some j := by
  have hrun := h (cs.length + 1) [] (Nat.lt_succ_self _) separated_nil
  rw [List.append_nil] at hrun
  rw [Json.readChars, hrun]
  rfl

-- ---------------------------------------------------------------------------
-- Strings
-- ---------------------------------------------------------------------------

def Piece.Shows (p : Piece) (c : Char) : Prop :=
  ∀ ps, joinPieces none (p :: ps) = (joinPieces none ps).map (c :: ·)

theorem Piece.Shows.char (c : Char) : (Piece.char c).Shows c := fun _ => by rw [joinPieces]

theorem Piece.Shows.unit (h : c.toNat < 0x20) : (Piece.unit c.toNat).Shows c := fun ps => by
  have hhigh : isHighSurrogate c.toNat = false := by
    simp only [isHighSurrogate, Bool.and_eq_false_iff, decide_eq_false_iff_not]
    omega
  have hlow : isLowSurrogate c.toNat = false := by
    simp only [isLowSurrogate, Bool.and_eq_false_iff, decide_eq_false_iff_not]
    omega
  simp [joinPieces, hhigh, hlow, Char.ofNat_toNat]

theorem readPieces_hexPad (hn : n < 0x20) (cs : List Char) :
    readPieces ('\\' :: 'u' :: (hexPad n ++ cs)) =
      (readPieces cs).map fun (ps, rest) => (.unit n :: ps, rest) := by
  have hread : ∀ n < 0x20, (hexPad n).length = 4 ∧
      (hexPad n).foldlM (fun n h => (hexDigit? h).map (n * 16 + ·)) 0 = some n := by decide
  obtain ⟨hlength, hvalue⟩ := hread n hn
  match h : hexPad n, hlength with
  | [a, b, c, d], _ =>
    rw [h] at hvalue
    simp only [List.cons_append, List.nil_append, readPieces, hvalue]
    cases readPieces cs <;> rfl

theorem readPieces_escaped {e : Char} (he : escaped? e = some c) (hu : e ≠ 'u') (cs : List Char) :
    readPieces ('\\' :: e :: cs) =
      (readPieces cs).map fun (ps, rest) => (.char c :: ps, rest) := by
  rw [readPieces, he]
  · cases readPieces cs <;> rfl
  · intro _ _ _ _ _ h
    exact absurd h hu

theorem readPieces_plain (hquote : c ≠ '"') (hslash : c ≠ '\\') (hc : ¬ c.toNat < 0x20)
    (cs : List Char) : readPieces (c :: cs) =
      (readPieces cs).map fun (ps, rest) => (.char c :: ps, rest) := by
  rw [readPieces, if_neg hc]
  · cases readPieces cs <;> rfl
  · exact hquote
  · rintro _ _ _ _ _ h
    exact absurd h hslash
  · rintro _ _ h
    exact absurd h hslash

theorem readPieces_escape (c : Char) (cs : List Char) : ∃ p : Piece, p.Shows c ∧
    readPieces (escape c ++ cs) = (readPieces cs).map fun (ps, rest) => (p :: ps, rest) := by
  have hchar {e : Char} (he : escaped? e = some c) (hu : e ≠ 'u')
      (hescape : escape c = ['\\', e]) : ∃ p : Piece, p.Shows c ∧
        readPieces (escape c ++ cs) = (readPieces cs).map fun (ps, rest) => (p :: ps, rest) :=
    ⟨.char c, .char c, by rw [hescape]; exact readPieces_escaped he hu cs⟩
  by_cases hquote : c = '"'
  · exact hchar (e := '"') (by rw [hquote]; rfl) (by decide) (by rw [hquote]; rfl)
  by_cases hslash : c = '\\'
  · exact hchar (e := '\\') (by rw [hslash]; rfl) (by decide) (by rw [hslash]; rfl)
  by_cases hb : c = '\x08'
  · exact hchar (e := 'b') (by rw [hb]; rfl) (by decide) (by rw [hb]; rfl)
  by_cases hf : c = '\x0c'
  · exact hchar (e := 'f') (by rw [hf]; rfl) (by decide) (by rw [hf]; rfl)
  by_cases hn : c = '\n'
  · exact hchar (e := 'n') (by rw [hn]; rfl) (by decide) (by rw [hn]; rfl)
  by_cases hr : c = '\r'
  · exact hchar (e := 'r') (by rw [hr]; rfl) (by decide) (by rw [hr]; rfl)
  by_cases ht : c = '\t'
  · exact hchar (e := 't') (by rw [ht]; rfl) (by decide) (by rw [ht]; rfl)
  simp only [escape, hquote, hslash, hb, hf, hn, hr, ht, if_false]
  split
  · next hcontrol => exact ⟨.unit c.toNat, .unit hcontrol, readPieces_hexPad hcontrol cs⟩
  · next hvisible => exact ⟨.char c, .char c, readPieces_plain hquote hslash hvisible cs⟩

theorem readPieces_quoted (text rest : List Char) : ∃ ps, joinPieces none ps = some text ∧
    readPieces (text.flatMap escape ++ '"' :: rest) = some (ps, rest) := by
  induction text with
  | nil => exact ⟨[], rfl, by simp [readPieces]⟩
  | cons c text ih =>
    obtain ⟨ps, hjoin, hread⟩ := ih
    obtain ⟨p, hshows, hpiece⟩ := readPieces_escape c (text.flatMap escape ++ '"' :: rest)
    refine ⟨p :: ps, by rw [hshows, hjoin]; rfl, ?_⟩
    rw [List.flatMap_cons, List.append_assoc, hpiece, hread]
    rfl

theorem readString_quoted (s : String) (rest : List Char) :
    readString (s.toList.flatMap escape ++ '"' :: rest) = some (some s, rest) := by
  obtain ⟨ps, hjoin, hread⟩ := readPieces_quoted s.toList rest
  simp [readString, hread, hjoin]

theorem quoted_toList (s : String) :
    (quoted s).toList = '"' :: s.toList.flatMap escape ++ ['"'] := by
  rw [quoted, String.toList_ofList]

theorem readsAs_str (s : String) : ReadsAs (quoted s).toList (.str s) := by
  refine .of_fuel fun fuel rest _ _ => ?_
  have hstring := readString_quoted s rest
  rw [quoted_toList, List.append_assoc, readValue, List.cons_append, skipSpace_cons rfl]
  show (readString (s.toList.flatMap escape ++ '"' :: rest)).map _ = _
  rw [hstring]
  rfl

-- ---------------------------------------------------------------------------
-- Literals and numbers
-- ---------------------------------------------------------------------------

theorem readsAs_null : ReadsAs (scalarText .null).toList .null :=
  .of_fuel fun _ _ _ _ => rfl

theorem readsAs_bool (value : Bool) : ReadsAs (scalarText (.bool value)).toList (.bool value) := by
  cases value with
  | false => exact .of_fuel fun _ _ _ _ => rfl
  | true => exact .of_fuel fun _ _ _ _ => rfl

theorem head_toDigits (h : n ≠ 0) : (Nat.toDigits 10 n).head? ≠ some '0' := by
  induction n using Nat.strongRecOn with
  | ind n ih =>
    rcases Nat.lt_or_ge n 10 with hlt | hge
    · have hdigit : ∀ d < 10, d ≠ 0 → some (Nat.digitChar d) ≠ some '0' := by decide
      rw [Nat.toDigits_of_lt_base hlt]
      exact hdigit n hlt h
    · have hquotient := ih (n / 10) (by omega) (by omega)
      rw [Nat.toDigits_of_base_le (by decide) hge, List.head?_append]
      cases hhead : (Nat.toDigits 10 (n / 10)).head? with
      | none => simp [List.head?_eq_none_iff] at hhead
      | some c =>
        rw [hhead] at hquotient
        exact hquotient

theorem wholeSignificand_digits (ds : List Char) (h : Nat.ofDigitChars 10 ds n < wordBound) :
    ds.foldl (fun (n, dropped) c =>
      if dropped = 0 ∧ n * 10 + Text.digitValue c < wordBound then (n * 10 + Text.digitValue c, 0)
      else (n, dropped + 1)) (n, 0) = (Nat.ofDigitChars 10 ds n, 0) := by
  induction ds generalizing n with
  | nil => simp [Nat.ofDigitChars_nil]
  | cons c ds ih =>
    rw [Text.ofDigitChars_cons] at h ⊢
    have hfits : n * 10 + Text.digitValue c < wordBound :=
      Nat.lt_of_le_of_lt (Text.le_ofDigitChars ds _) h
    simp only [List.foldl_cons, hfits, and_self, if_true]
    exact ih h

theorem readFraction_separated (h : Separated rest) : readFraction rest = some (none, rest) := by
  cases rest with
  | nil => rfl
  | cons c rest =>
    rw [readFraction]
    intro _ heq
    exact absurd (List.cons.inj heq).1 (h c rfl).2.1

theorem readExponent_separated (h : Separated rest) : readExponent rest = some (none, rest) := by
  cases rest with
  | nil => rfl
  | cons c rest => simp [readExponent, (h c rfl).2.2.1, (h c rfl).2.2.2]

theorem readDigits_nat (n : Nat) (h : NoDigit rest) :
    readDigits (Nat.toDigits 10 n ++ rest) = some (Nat.toDigits 10 n, rest) := by
  have hds := Text.toDigits_allDigits n
  rw [readDigits, Text.takeWhile_digits hds h, Text.dropWhile_digits hds h]
  split
  · next heq => exact absurd heq Nat.toDigits_ne_nil
  · rfl

theorem readNumeral_nat (n : Nat) (h : Separated rest) :
    readNumeral (Nat.toDigits 10 n ++ rest) =
      some (⟨false, Nat.toDigits 10 n, none, none⟩, rest) := by
  have hzero : ¬ ((Nat.toDigits 10 n).head? = some '0' ∧ (Nat.toDigits 10 n).length ≠ 1) := by
    rintro ⟨hhead, hlength⟩
    by_cases hn : n = 0
    · rw [hn] at hlength
      exact hlength rfl
    · exact head_toDigits hn hhead
  have hdigits := readDigits_nat n fun c hc => (h c hc).1
  simp only [readNumeral]
  split
  · next heq =>
    obtain ⟨c, ds, hcons⟩ := List.exists_cons_of_ne_nil (Nat.toDigits_ne_nil (b := 10) (n := n))
    rw [hcons, List.cons_append] at heq
    have hc : isDigit c = true := Text.toDigits_allDigits n c (hcons ▸ List.mem_cons_self)
    exact absurd (List.cons.inj heq).1 (Text.ne_of_isDigit hc (by decide))
  · simp only [hdigits, Option.bind_eq_bind, Option.bind_some, if_neg hzero,
      readFraction_separated h, readExponent_separated h]
    rfl

theorem readValue_digit (hc : isDigit c = true) (fuel : Nat) (rest : List Char) :
    readValue (fuel + 1) (c :: rest) =
      (readNumeral (c :: rest)).map fun (n, rest) => (n.toJson, rest) := by
  have hspace : isSpace c = false := by
    have hne {d : Char} (hd : isDigit d = false) : c ≠ d := Text.ne_of_isDigit hc hd
    simp only [isSpace, Bool.or_eq_false_iff, decide_eq_false_iff_not]
    exact ⟨⟨⟨hne (by decide), hne (by decide)⟩, hne (by decide)⟩, hne (by decide)⟩
  have hdigit {d : Char} {rest' : List Char} (heq : c :: rest = d :: rest') : isDigit d = true :=
    (List.cons.inj heq).1 ▸ hc
  rw [readValue, skipSpace_cons hspace]
  split
  · next heq => exact absurd (hdigit heq) (by decide)
  · next heq => exact absurd (hdigit heq) (by decide)
  · next heq => exact absurd (hdigit heq) (by decide)
  · next heq => exact absurd (hdigit heq) (by decide)
  · next heq => exact absurd (hdigit heq) (by decide)
  · next heq => exact absurd (hdigit heq) (by decide)
  · rfl

theorem readsAs_nat (h : n < wordBound) : ReadsAs (scalarText (.ofNat n)).toList (.ofNat n) := by
  have htext : (scalarText (.ofNat n)).toList = Nat.toDigits 10 n := by
    show (toString n).toList = _
    rw [Nat.toString_eq_ofList_toDigits, String.toList_ofList]
  refine .of_fuel fun fuel rest _ hrest => ?_
  have hnumeral := readNumeral_nat n hrest
  obtain ⟨c, ds, hcons⟩ := List.exists_cons_of_ne_nil (Nat.toDigits_ne_nil (b := 10) (n := n))
  have hc : isDigit c = true := Text.toDigits_allDigits n c (hcons ▸ List.mem_cons_self)
  have hwhole : wholeSignificand (Nat.toDigits 10 n) = (n, 0) := by
    have hvalue := Nat.ofDigitChars_ten_toDigits (n := n)
    rw [wholeSignificand, wholeSignificand_digits _ (by rwa [hvalue]), hvalue]
  rw [hcons, List.cons_append] at hnumeral
  rw [htext, hcons, List.cons_append, readValue_digit hc, hnumeral, ← hcons]
  simp [Numeral.toJson, hwhole, ofNat]

-- ---------------------------------------------------------------------------
-- Arrays and objects
-- ---------------------------------------------------------------------------

theorem ReadsAs.not_close (h : ReadsAs cs j) (hrest : Separated rest) (after : List Char) :
    skipSpace (cs ++ rest) ≠ ']' :: after := by
  intro hclose
  have hrun := h (cs.length + 1) rest (Nat.lt_succ_self _) hrest
  rw [← readValue_skipSpace, hclose] at hrun
  cases hrun

theorem readItems_skipSpace (fuel : Nat) (cs : List Char) :
    readItems fuel (skipSpace cs) = readItems fuel cs := by
  cases fuel with
  | zero => rw [readItems, readItems]
  | succ fuel => rw [readItems, readItems, readValue_skipSpace]

theorem skipSpace_close (hb : Blank b) (h : isSpace c = false) (rest : List Char) :
    skipSpace (b ++ c :: rest) = c :: rest := by
  rw [skipSpace_blank hb, skipSpace_cons h]

theorem separated_close (hb : Blank b) (rest : List Char) : Separated (b ++ ']' :: rest) :=
  separated_blank hb (separated_cons (by decide) (by decide) (by decide) (by decide))

theorem separated_comma (rest : List Char) : Separated (',' :: rest) :=
  separated_cons (by decide) (by decide) (by decide) (by decide)

theorem pieces_not_close {pieces : List (List Char)} {items : List Json}
    (h : List.Forall₂ ReadsAs pieces items) (hne : items ≠ []) (hb : Blank b) (hb' : Blank b')
    (after : List Char) :
    skipSpace (b ++ ((',' :: b).intercalate pieces ++ (b' ++ ']' :: rest))) ≠ ']' :: after := by
  rw [skipSpace_blank hb]
  cases h with
  | nil => exact absurd rfl hne
  | cons hpiece hpieces =>
    cases hpieces with
    | nil =>
      rw [List.intercalate_singleton]
      exact hpiece.not_close (separated_close hb' rest) after
    | cons =>
      rw [List.intercalate_cons_cons]
      simp only [List.append_assoc, List.cons_append]
      exact hpiece.not_close (separated_comma _) after

theorem readItems_pieces {pieces : List (List Char)} {items : List Json}
    (h : List.Forall₂ ReadsAs pieces items) (hne : items ≠ []) (hb : Blank b) (hb' : Blank b')
    (rest : List Char) (fuel : Nat) (hfuel : ((',' :: b).intercalate pieces).length + 1 < fuel) :
    readItems fuel (b ++ ((',' :: b).intercalate pieces ++ (b' ++ ']' :: rest))) =
      some (items, rest) := by
  induction h generalizing fuel with
  | nil => exact absurd rfl hne
  | @cons piece item pieces items hpiece hpieces ih =>
    obtain ⟨fuel, rfl⟩ : ∃ f, fuel = f + 1 := ⟨fuel - 1, by omega⟩
    cases hpieces with
    | nil =>
      rw [List.intercalate_singleton] at hfuel ⊢
      have hvalue := hpiece fuel (b' ++ ']' :: rest) (by omega) (separated_close hb' rest)
      rw [readItems, readValue_blank hb, hvalue]
      simp [skipSpace_close hb' (show isSpace ']' = false from rfl)]
    | @cons piece' item' pieces items hpiece' hpieces' =>
      rw [List.intercalate_cons_cons] at hfuel ⊢
      generalize hjoined : (',' :: b).intercalate (piece' :: pieces) = joined at ih hfuel ⊢
      simp only [List.length_append, List.length_cons] at hfuel
      have hvalue := hpiece fuel (',' :: (b ++ (joined ++ (b' ++ ']' :: rest)))) (by omega)
        (separated_comma _)
      have hitems := ih (by simp) fuel (by omega)
      rw [readItems, readValue_blank hb]
      simp only [List.append_assoc, List.cons_append]
      rw [hvalue]
      simp [skipSpace_cons (show isSpace ',' = false from rfl), hitems]

theorem readsAs_arr_nil : ReadsAs "[]".toList (.arr []) := .of_fuel fun _ _ _ _ => rfl

theorem readsAs_arr {pieces : List (List Char)} {items : List Json}
    (h : List.Forall₂ ReadsAs pieces items) (hne : items ≠ []) (hb : Blank b) (hb' : Blank b') :
    ReadsAs ('[' :: (b ++ ((',' :: b).intercalate pieces ++ (b' ++ [']'])))) (.arr items) := by
  refine .of_fuel fun fuel rest hfuel _ => ?_
  simp only [List.length_cons, List.length_append, List.length_nil] at hfuel
  have hitems := readItems_pieces h hne hb hb' rest fuel (by omega)
  have hopen : skipSpace ('[' :: (b ++ ((',' :: b).intercalate pieces ++ (b' ++ [']']))) ++ rest) =
      '[' :: (b ++ ((',' :: b).intercalate pieces ++ (b' ++ ']' :: rest))) := by
    rw [List.cons_append, skipSpace_cons (by decide)]
    simp only [List.append_assoc, List.cons_append, List.nil_append]
  simp only [readValue, hopen]
  rw [← readItems_skipSpace] at hitems
  split
  · next heq => exact absurd heq (pieces_not_close h hne hb hb' _)
  · rw [hitems]
    rfl

/-- The text of a member: its name, a colon and, behind blanks or not, its value. -/
def ReadsAsMember (cs : List Char) (member : String × Json) : Prop :=
  ∃ gap text, Blank gap ∧ ReadsAs text member.2 ∧
    cs = '"' :: (member.1.toList.flatMap escape ++ '"' :: ':' :: (gap ++ text))

theorem ReadsAsMember.of_value {gap text : List Char} (name : String) (hgap : Blank gap)
    (h : ReadsAs text j) : ReadsAsMember ((quoted name).toList ++ ':' :: (gap ++ text)) (name, j) :=
  ⟨gap, text, hgap, h, by simp [quoted_toList]⟩

theorem readMembers_skipSpace (fuel : Nat) (cs : List Char) :
    readMembers fuel (skipSpace cs) = readMembers fuel cs := by
  cases fuel with
  | zero => rw [readMembers, readMembers]
  | succ fuel => rw [readMembers, readMembers, skipSpace_idem]

theorem separated_brace (hb : Blank b) (rest : List Char) : Separated (b ++ '\x7d' :: rest) :=
  separated_blank hb (separated_cons (by decide) (by decide) (by decide) (by decide))

theorem readMembers_piece {piece after : List Char} {member : String × Json}
    (h : ReadsAsMember piece member) {fuel : Nat} (hfuel : piece.length < fuel + 1)
    (hafter : Separated after) :
    (∀ rest, skipSpace after = ',' :: rest → readMembers (fuel + 1) (piece ++ after) =
      (readMembers fuel rest).map fun (members, rest) => (members.map (member :: ·), rest)) ∧
    ∀ rest, skipSpace after = '\x7d' :: rest →
      readMembers (fuel + 1) (piece ++ after) = some (some [member], rest) := by
  obtain ⟨name, value⟩ := member
  obtain ⟨gap, text, hgap, htext, rfl⟩ := h
  simp only [List.length_cons, List.length_append] at hfuel
  have hname := readString_quoted name (':' :: (gap ++ (text ++ after)))
  have hvalue := htext fuel after (by omega) hafter
  rw [← readValue_blank hgap] at hvalue
  simp only [List.append_assoc, List.cons_append]
  rw [readMembers, skipSpace_cons rfl]
  simp only [hname, Option.bind_eq_bind, Option.bind_some,
    skipSpace_cons (show isSpace ':' = false from rfl), hvalue]
  constructor
  · intro rest hrest
    simp only [hrest]
    cases readMembers fuel rest <;> rfl
  · intro rest hrest
    simp only [hrest, Option.map_some]

theorem readMembers_pieces {pieces : List (List Char)} {members : List (String × Json)}
    (h : List.Forall₂ ReadsAsMember pieces members) (hne : members ≠ []) (hb : Blank b)
    (hb' : Blank b') (rest : List Char) (fuel : Nat)
    (hfuel : ((',' :: b).intercalate pieces).length + 1 < fuel) :
    readMembers fuel (b ++ ((',' :: b).intercalate pieces ++ (b' ++ '\x7d' :: rest))) =
      some (some members, rest) := by
  induction h generalizing fuel with
  | nil => exact absurd rfl hne
  | @cons piece member pieces members hpiece hpieces ih =>
    obtain ⟨fuel, rfl⟩ : ∃ f, fuel = f + 1 := ⟨fuel - 1, by omega⟩
    rw [← readMembers_skipSpace, skipSpace_blank hb, readMembers_skipSpace]
    cases hpieces with
    | nil =>
      rw [List.intercalate_singleton] at hfuel ⊢
      have hend := skipSpace_close hb' (show isSpace '\x7d' = false from rfl) rest
      exact (readMembers_piece hpiece (by omega) (separated_brace hb' rest)).2 rest hend
    | @cons piece' member' pieces members hpiece' hpieces' =>
      rw [List.intercalate_cons_cons] at hfuel ⊢
      generalize hjoined : (',' :: b).intercalate (piece' :: pieces) = joined at ih hfuel ⊢
      simp only [List.length_append, List.length_cons] at hfuel
      have hmembers := ih (by simp) fuel (by omega)
      simp only [List.append_assoc, List.cons_append]
      rw [(readMembers_piece hpiece (by omega) (separated_comma _)).1 _ (skipSpace_cons rfl)]
      simp [hmembers]

theorem readsAs_obj {pieces : List (List Char)} {members : List (String × Json)}
    (h : List.Forall₂ ReadsAsMember pieces members) (hne : members ≠ []) (hb : Blank b)
    (hb' : Blank b') :
    ReadsAs ('\x7b' :: (b ++ ((',' :: b).intercalate pieces ++ (b' ++ ['\x7d']))))
      (.obj members) := by
  refine .of_fuel fun fuel rest hfuel _ => ?_
  simp only [List.length_cons, List.length_append, List.length_nil] at hfuel
  have hmembers := readMembers_pieces h hne hb hb' rest fuel (by omega)
  have hopen : skipSpace
      ('\x7b' :: (b ++ ((',' :: b).intercalate pieces ++ (b' ++ ['\x7d']))) ++ rest) =
      '\x7b' :: (b ++ ((',' :: b).intercalate pieces ++ (b' ++ '\x7d' :: rest))) := by
    rw [List.cons_append, skipSpace_cons (by decide)]
    simp only [List.append_assoc, List.cons_append, List.nil_append]
  simp only [readValue, hopen]
  rw [← readMembers_skipSpace] at hmembers
  split
  · next heq =>
    rw [heq] at hmembers
    cases fuel <;> cases hmembers
  · rw [hmembers]
    rfl

theorem readsAs_obj_nil : ReadsAs (openBrace ++ closeBrace).toList (.obj []) :=
  .of_fuel fun _ _ _ _ => rfl

-- ---------------------------------------------------------------------------
-- The printers
-- ---------------------------------------------------------------------------

/-- Values made of strings, truth values, null and whole numbers of a word. -/
inductive Plain : Json → Prop
  | null : Plain .null
  | bool (value : Bool) : Plain (.bool value)
  | nat {n : Nat} (h : n < wordBound) : Plain (.ofNat n)
  | str (text : String) : Plain (.str text)
  | arr {items : List Json} (h : ∀ j ∈ items, Plain j) : Plain (.arr items)
  | obj {members : List (String × Json)} (h : ∀ m ∈ members, Plain m.2) : Plain (.obj members)

theorem compactItems_eq (items : List Json) : compactItems items = items.map compact := by
  induction items with
  | nil => rfl
  | cons j rest ih => rw [compactItems, ih, List.map_cons]

theorem compactMembers_eq (members : List (String × Json)) : compactMembers members =
    members.map fun m => quoted m.1 ++ ":" ++ compact m.2 := by
  induction members with
  | nil => rfl
  | cons m rest ih => rw [compactMembers, ih, List.map_cons]

theorem prettyItems_eq (depth : Nat) (items : List Json) :
    prettyItems depth items = items.map (prettyAt depth) := by
  induction items with
  | nil => rfl
  | cons j rest ih => rw [prettyItems, ih, List.map_cons]

theorem prettyMembers_eq (depth : Nat) (members : List (String × Json)) :
    prettyMembers depth members =
      members.map fun m => quoted m.1 ++ ": " ++ prettyAt depth m.2 := by
  induction members with
  | nil => rfl
  | cons m rest ih => rw [prettyMembers, ih, List.map_cons]

theorem blank_nil : Blank [] := by simp [Blank]

theorem blank_newline (depth : Nat) : Blank (newline depth).toList := by
  intro c hc
  simp only [newline, String.toList_append, String.toList_ofList, List.mem_append,
    List.mem_replicate] at hc
  rcases hc with hc | ⟨-, rfl⟩
  · obtain rfl : c = '\n' := by simpa using hc
    rfl
  · rfl

theorem bracket_toList (opening closing : String) (pieces : List String) :
    (bracket opening closing pieces).toList =
      opening.toList ++ ([','].intercalate (pieces.map String.toList) ++ closing.toList) := by
  simp [bracket]

theorem block_toList (depth : Nat) (opening closing : String) {pieces : List String}
    (h : pieces ≠ []) : (block depth opening closing pieces).toList =
      opening.toList ++ ((newline (depth + 1)).toList ++
        ((',' :: (newline (depth + 1)).toList).intercalate (pieces.map String.toList) ++
          ((newline depth).toList ++ closing.toList))) := by
  simp [block, h]

theorem forall₂_texts {α : Type} {R : List Char → α → Prop} {items : List α} {print : α → String}
    (h : ∀ a ∈ items, R (print a).toList a) :
    List.Forall₂ R ((items.map print).map String.toList) items := by
  rw [List.map_map, List.forall₂_map_left_iff, List.forall₂_same]
  exact h

theorem readsAs_compact (h : j.Plain) : ReadsAs (compact j).toList j := by
  induction h with
  | null => exact readsAs_null
  | bool value => exact readsAs_bool value
  | nat h => exact readsAs_nat h
  | str text => exact readsAs_str text
  | @arr items _ ih =>
    cases items with
    | nil => exact readsAs_arr_nil
    | cons j rest =>
      have hread := readsAs_arr (forall₂_texts ih) (by simp) blank_nil blank_nil
      rw [compact, bracket_toList, compactItems_eq]
      exact hread
  | @obj members _ ih =>
    cases members with
    | nil => exact readsAs_obj_nil
    | cons m rest =>
      have hmembers : ∀ m' ∈ m :: rest,
          ReadsAsMember (quoted m'.1 ++ ":" ++ compact m'.2).toList m' := fun m' hm' => by
        simpa using ReadsAsMember.of_value m'.1 blank_nil (ih m' hm')
      have hread := readsAs_obj (forall₂_texts hmembers) (by simp) blank_nil blank_nil
      rw [compact, bracket_toList, compactMembers_eq]
      exact hread

theorem readsAs_prettyAt (h : j.Plain) (depth : Nat) : ReadsAs (prettyAt depth j).toList j := by
  induction h generalizing depth with
  | null => exact readsAs_null
  | bool value => exact readsAs_bool value
  | nat h => exact readsAs_nat h
  | str text => exact readsAs_str text
  | @arr items _ ih =>
    cases items with
    | nil => exact readsAs_arr_nil
    | cons j rest =>
      have hread := readsAs_arr (forall₂_texts fun j hj => ih j hj (depth + 1)) (by simp)
        (blank_newline (depth + 1)) (blank_newline depth)
      rw [prettyAt, prettyItems_eq, block_toList _ _ _ (by simp)]
      exact hread
  | @obj members _ ih =>
    cases members with
    | nil => exact readsAs_obj_nil
    | cons m rest =>
      have hmembers : ∀ m' ∈ m :: rest, ReadsAsMember
          (quoted m'.1 ++ ": " ++ prettyAt (depth + 1) m'.2).toList m' := fun m' hm' => by
        have hgap : Blank [' '] := by simp [Blank, isSpace]
        simpa using ReadsAsMember.of_value m'.1 hgap (ih m' hm' (depth + 1))
      have hread := readsAs_obj (forall₂_texts hmembers) (by simp)
        (blank_newline (depth + 1)) (blank_newline depth)
      rw [prettyAt, prettyMembers_eq, block_toList _ _ _ (by simp)]
      exact hread

theorem read_compact (h : j.Plain) : read j.compact = some j :=
  (readsAs_compact h).readChars

theorem read_pretty (h : j.Plain) : read j.pretty = some j :=
  (readsAs_prettyAt h 0).readChars

end ExchangeDesk.Json
