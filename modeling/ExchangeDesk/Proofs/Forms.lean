import ExchangeDesk.Proofs.Formats
import ExchangeDesk.Proofs.OtherClock

/-!
# What the clock shows in an outcome

A form is a text with blanks for readings of the clock. The exchange command prints a form: for
one book file and one set of options there is a form that every run of it fills with what its
clock shows (`runExchange_formed`), so two runs differ in nothing else. In JSON and as text the
blanks are the beginnings of correlation ids and the times at which records were created, and on
the standard error the time of a line of the log.
-/

namespace ExchangeDesk

open ExchangeDesk.Json

abbrev Timed (α : Type) := (Nat → Instant) → α

-- ---------------------------------------------------------------------------
-- Forms
-- ---------------------------------------------------------------------------

/-- Words, or a blank for a reading of the clock as it is written in a correlation id, in a
record or in the log. -/
inductive Part where
  | words (text : String)
  | millis (reading : Nat)
  | time (reading : Nat)
  | seconds (reading : Nat)
  deriving DecidableEq, Repr

def Part.fill (clock : Nat → Instant) : Part → String
  | .words text => text
  | .millis reading => String.ofList (CorrelationId.hex (clock reading).millis.toNat)
  | .time reading => (clock reading).text
  | .seconds reading => (clock reading).secondsText

abbrev Form := List Part

def Form.fill (clock : Nat → Instant) (form : Form) : String :=
  String.join (form.map (·.fill clock))

/-- There is a form that this text fills, whatever the clock shows. -/
def Formed (text : Timed String) : Prop := ∃ form : Form, ∀ clock, text clock = form.fill clock

def AllFormed (texts : Timed (List String)) : Prop :=
  ∃ forms : List Form, ∀ clock, texts clock = forms.map (·.fill clock)

theorem Form.fill_append (clock : Nat → Instant) (form form' : Form) :
    fill clock (form ++ form') = fill clock form ++ fill clock form' := by
  rw [fill, List.map_append, String.join_append]
  rfl

theorem Form.fill_singleton (clock : Nat → Instant) (part : Part) :
    fill clock [part] = part.fill clock := by
  simp [fill, String.join_cons]

namespace Formed

variable {text text' : Timed String} {texts : Timed (List String)}

theorem part (p : Part) : Formed fun clock => p.fill clock :=
  ⟨[p], fun clock => (Form.fill_singleton clock p).symm⟩

theorem const (text : String) : Formed fun _ => text := part (.words text)

theorem append (h : Formed text) (h' : Formed text') :
    Formed fun clock => text clock ++ text' clock := by
  obtain ⟨form, hform⟩ := h
  obtain ⟨form', hform'⟩ := h'
  exact ⟨form ++ form', fun clock => by simp only [hform, hform', Form.fill_append]⟩

theorem intercalate (between : String) (h : AllFormed texts) :
    Formed fun clock => between.intercalate (texts clock) := by
  obtain ⟨forms, hforms⟩ := h
  suffices Formed fun clock => between.intercalate (forms.map (·.fill clock)) by
    simpa only [hforms] using this
  clear hforms
  induction forms with
  | nil => exact const ""
  | cons form forms ih =>
    cases forms with
    | nil => exact ⟨form, fun clock => String.intercalate_singleton⟩
    | cons form' forms =>
      simp only [List.map_cons, String.intercalate_cons_cons] at ih ⊢
      exact append (append ⟨form, fun _ => rfl⟩ (const between)) ih

theorem join (h : AllFormed texts) : Formed fun clock => String.join (texts clock) := by
  obtain ⟨forms, hforms⟩ := h
  refine ⟨forms.flatten, fun clock => ?_⟩
  simp only [hforms]
  clear hforms
  induction forms with
  | nil => rfl
  | cons form forms ih =>
    rw [List.map_cons, String.join_cons, ih, List.flatten_cons, Form.fill_append]

end Formed

namespace AllFormed

variable {text : Timed String} {texts : Timed (List String)}

theorem const (texts : List String) : AllFormed fun _ => texts :=
  ⟨texts.map fun text => [.words text], fun clock => by
    simp [Form.fill_singleton, Function.comp_def, Part.fill]⟩

theorem cons (h : Formed text) (hs : AllFormed texts) :
    AllFormed fun clock => text clock :: texts clock := by
  obtain ⟨form, hform⟩ := h
  obtain ⟨forms, hforms⟩ := hs
  exact ⟨form :: forms, fun clock => by simp only [hform, hforms, List.map_cons]⟩

theorem map {α : Type} {f : α → Timed String} (items : List α) (h : ∀ a, Formed (f a)) :
    AllFormed fun clock => items.map (f · clock) := by
  induction items with
  | nil => exact const []
  | cons a items ih => exact cons (h a) ih

end AllFormed

-- ---------------------------------------------------------------------------
-- JSON
-- ---------------------------------------------------------------------------

namespace Json

/-- Printed as a form, at each depth. -/
def PrintsForm (j : Timed Json) : Prop := ∀ depth, Formed fun clock => (j clock).prettyAt depth

def ItemsPrintForms (items : Timed (List Json)) : Prop :=
  ∀ depth, AllFormed fun clock => prettyItems depth (items clock)

def MembersPrintForms (members : Timed (List (String × Json))) : Prop :=
  ∀ depth, AllFormed fun clock => prettyMembers depth (members clock)

theorem block_formed {pieces : Timed (List String)} (depth : Nat) (opening closing : String)
    (h : AllFormed pieces) : Formed fun clock => block depth opening closing (pieces clock) := by
  obtain ⟨forms, hforms⟩ := h
  suffices Formed fun clock => block depth opening closing (forms.map (·.fill clock)) by
    simpa only [hforms] using this
  cases forms with
  | nil => exact .const _
  | cons form forms =>
    have hforms : AllFormed fun clock => (form :: forms).map (·.fill clock) := ⟨_, fun _ => rfl⟩
    exact (((Formed.const _).append (.intercalate _ hforms)).append (.const _)).append (.const _)

variable {j : Timed Json} {items : Timed (List Json)} {members : Timed (List (String × Json))}

theorem PrintsForm.const (j : Json) : PrintsForm fun _ => j := fun _ => .const _

theorem PrintsForm.str {s : Timed String} (h : Formed fun clock => quoted (s clock)) :
    PrintsForm fun clock => .str (s clock) := fun _ => h

theorem PrintsForm.arr (h : ItemsPrintForms items) : PrintsForm fun clock => .arr (items clock) :=
  fun depth => block_formed depth _ _ (h (depth + 1))

theorem PrintsForm.obj (h : MembersPrintForms members) :
    PrintsForm fun clock => .obj (members clock) :=
  fun depth => block_formed depth _ _ (h (depth + 1))

theorem ItemsPrintForms.map {α : Type} {f : α → Timed Json} (as : List α)
    (h : ∀ a, PrintsForm (f a)) : ItemsPrintForms fun clock => as.map (f · clock) := by
  intro depth
  induction as with
  | nil => exact .const []
  | cons a as ih => exact .cons (h a depth) ih

theorem MembersPrintForms.const (members : List (String × Json)) :
    MembersPrintForms fun _ => members := fun _ => .const _

theorem MembersPrintForms.cons {name : String} (h : PrintsForm j) (hs : MembersPrintForms members) :
    MembersPrintForms fun clock => (name, j clock) :: members clock :=
  fun depth => .cons ((Formed.const _).append (h depth)) (hs depth)

theorem MembersPrintForms.after (first : List (String × Json)) (hs : MembersPrintForms members) :
    MembersPrintForms fun clock => first ++ members clock := by
  induction first with
  | nil => exact hs
  | cons member first ih => exact .cons (.const member.2) ih

-- ---------------------------------------------------------------------------
-- Characters that a string keeps
-- ---------------------------------------------------------------------------

def Bare (cs : List Char) : Prop := ∀ c ∈ cs, escape c = [c]

instance (cs : List Char) : Decidable (Bare cs) := List.decidableBAll _ cs

theorem Bare.flatMap_escape {cs : List Char} (h : Bare cs) : cs.flatMap escape = cs := by
  induction cs with
  | nil => rfl
  | cons c cs ih =>
    obtain ⟨hc, hcs⟩ := List.forall_mem_cons.mp h
    rw [List.flatMap_cons, hc, ih hcs]
    rfl

theorem bare_append {cs cs' : List Char} : Bare (cs ++ cs') ↔ Bare cs ∧ Bare cs' :=
  List.forall_mem_append

theorem bare_cons {c : Char} {cs : List Char} : Bare (c :: cs) ↔ escape c = [c] ∧ Bare cs :=
  List.forall_mem_cons

theorem bare_nil : Bare [] := List.forall_mem_nil _

theorem bare_hex (n : Nat) : Bare (CorrelationId.hex n) := by
  have hdigits : Bare CorrelationId.hexDigits := by decide
  exact fun c hc => hdigits c (CorrelationId.hex_mem_hexDigits n c hc)

theorem bare_padded (width n : Nat) : Bare (Text.padded width n) := by
  intro c hc
  have hdigit := Text.padded_allDigits width n c hc
  have hvisible : ¬c.toNat < 0x20 := by
    have hcode := (Text.isDigit_iff.mp hdigit).1
    omega
  simp only [escape, if_neg hvisible]
  iterate 7 rw [if_neg (Text.ne_of_isDigit hdigit (by decide))]

theorem bare_yearChars (year : Int) : Bare (Date.yearChars year) := by
  unfold Date.yearChars
  split
  · exact bare_padded _ _
  · refine bare_cons.mpr ⟨?_, bare_padded _ _⟩
    split <;> rfl

theorem bare_secondsChars (t : Instant) : Bare t.secondsChars := by
  simp only [Instant.secondsChars, bare_append, bare_cons, bare_padded, bare_yearChars,
    and_true, true_and]
  decide

theorem bare_fractionChars (t : Instant) : Bare t.fractionChars := by
  simp only [Instant.fractionChars]
  split
  · exact bare_nil
  · split
    · exact bare_cons.mpr ⟨rfl, bare_padded _ _⟩
    · split
      · exact bare_cons.mpr ⟨rfl, bare_padded _ _⟩
      · exact bare_cons.mpr ⟨rfl, bare_padded _ _⟩

theorem bare_text (t : Instant) : Bare t.text.toList := by
  rw [Instant.text, String.toList_ofList]
  exact bare_append.mpr ⟨bare_append.mpr ⟨bare_secondsChars t, bare_fractionChars t⟩, by decide⟩

end Json

-- ---------------------------------------------------------------------------
-- Records
-- ---------------------------------------------------------------------------

theorem instantJson_formed (reading : Nat) :
    PrintsForm fun clock => CommandLine.instantJson (clock reading) := by
  refine .str ?_
  have hquoted (t : Instant) : quoted t.text = "\"" ++ t.text ++ "\"" := by
    rw [quoted, (bare_text t).flatMap_escape, ← String.toList_inj]
    simp
  simp only [hquoted]
  exact ((Formed.const _).append (.part (.time reading))).append (.const _)

theorem CorrelationId.text_formed (id : CorrelationId) (reading : Nat) :
    Formed fun clock => (id.stamped (clock reading)).text := by
  simp only [stamped, String.ofList_append]
  exact (Formed.part (.millis reading)).append (.const _)

theorem CorrelationId.quoted_formed (id : CorrelationId) (reading : Nat) :
    Formed fun clock => quoted (id.stamped (clock reading)).text := by
  have hquoted (now : Instant) : quoted (id.stamped now).text = "\"" ++
      String.ofList (hex now.millis.toNat) ++
      String.ofList ((id.text.toList.dropWhile (· != '-')).flatMap escape ++ ['"']) := by
    rw [quoted, stamped, String.toList_ofList, List.flatMap_append, (bare_hex _).flatMap_escape,
      ← String.toList_inj]
    simp
  simp only [hquoted]
  exact ((Formed.const _).append (.part (.millis reading))).append (.const _)

theorem JournalEntry.toJson_formed (e : JournalEntry) (reading : Nat) :
    PrintsForm fun clock => (e.stamped (clock reading)).toJson := by
  simp only [toJson, stamped]
  exact .obj <| .after [_, _, _, _] <|
    .cons (.str (e.correlation.quoted_formed reading)) (.const _)

theorem CashMovement.toJson_formed (m : CashMovement) (reading : Nat) :
    PrintsForm fun clock => (m.stamped (clock reading)).toJson := by
  simp only [toJson, stamped]
  exact .obj <| .after [_] <| .cons (m.debit.toJson_formed reading) <|
    .cons (m.credit.toJson_formed reading) (.const [])

theorem LegPostings.toJson_formed (p : LegPostings) (reading : Nat) :
    PrintsForm fun clock => (p.stamped (clock reading)).toJson := by
  simp only [toJson, stamped]
  exact .obj <| .cons (p.outward.toJson_formed reading) <|
    .cons (p.inward.toJson_formed reading) (.const [])

theorem Exchange.toJson_formed (e : Exchange) (reading : Nat) :
    PrintsForm fun clock => (e.stamped (clock reading)).toJson CommandLine.instantJson := by
  simp only [toJson, NewExchange.members, stamped]
  exact .obj <| .after [_, _, _, _, _, _, _] <|
    .cons (instantJson_formed reading) (.const _)

theorem ExecutedLeg.toJson_formed (leg : ExecutedLeg) :
    PrintsForm fun clock => (leg.shown clock).toJson CommandLine.instantJson := by
  simp only [toJson, shown, stamped]
  exact .obj <| .cons (leg.exchange.toJson_formed _) <|
    .cons (leg.postings.toJson_formed _) (.const [])

theorem legsJson_formed (legs : List ExecutedLeg) : Formed fun clock =>
    (Json.list (ExecutedLeg.toJson CommandLine.instantJson) (legs.map (·.shown clock))).pretty := by
  simp only [Json.list, List.map_map]
  exact PrintsForm.arr (.map legs ExecutedLeg.toJson_formed) 0

namespace CommandLine

-- ---------------------------------------------------------------------------
-- Lines
-- ---------------------------------------------------------------------------

theorem movementLine_formed (m : CashMovement) (reading : Nat) :
    Formed fun clock => movementLine (m.stamped (clock reading)) := by
  simp only [movementLine, CashMovement.stamped, CashMovement.correlation, JournalEntry.stamped]
  exact .append (.const _) <|
    .append (.append (.const _) (m.debit.correlation.text_formed reading)) (.const _)

theorem legLines_formed (number : Nat) (leg : ExecutedLeg) (shown : Decimal) :
    Formed fun clock => legLines number (leg.shown clock) shown := by
  unfold legLines
  simp only [ExecutedLeg.shown, ExecutedLeg.stamped, Exchange.stamped, Instant.shown,
    LegPostings.movements, LegPostings.stamped, List.map_cons, List.map_nil]
  refine .append (.const _) ?_
  exact .join <| .cons (movementLine_formed leg.postings.outward _) <|
    .cons (movementLine_formed leg.postings.inward _) <| .const []

theorem errorLog_formed (log : List LogLine) (reading : Nat) :
    Formed fun clock => errorLog (clock reading) log := by
  unfold errorLog
  refine .join (.map _ fun line => ?_)
  simp only [String.append_assoc]
  exact .append (.const _) (.append (.part (.seconds reading)) (.const _))

-- ---------------------------------------------------------------------------
-- Outcomes
-- ---------------------------------------------------------------------------

structure OutcomeForm where
  code : Nat
  output : Form
  errors : Form
  deriving DecidableEq, Repr

def OutcomeForm.fill (clock : Nat → Instant) (form : OutcomeForm) : Outcome :=
  ⟨form.code, form.output.fill clock, form.errors.fill clock⟩

/-- There is a form that this outcome fills, whatever the clock shows. -/
def FormedOutcome (outcome : Timed Outcome) : Prop :=
  ∃ form : OutcomeForm, ∀ clock, outcome clock = form.fill clock

theorem FormedOutcome.mk {code : Nat} {output errors : Timed String} (houtput : Formed output)
    (herrors : Formed errors) : FormedOutcome fun clock => ⟨code, output clock, errors clock⟩ := by
  obtain ⟨form, hform⟩ := houtput
  obtain ⟨form', hform'⟩ := herrors
  exact ⟨⟨code, form, form'⟩, fun clock => by simp only [hform, hform', OutcomeForm.fill]⟩

theorem FormedOutcome.const (outcome : Outcome) : FormedOutcome fun _ => outcome :=
  mk (.const _) (.const _)

theorem FormedOutcome.bind {α : Type} {x : Except Outcome α}
    {f : Timed (α → Except Outcome Outcome)}
    (h : ∀ a, FormedOutcome fun clock => ended (f clock a)) :
    FormedOutcome fun clock => ended (x >>= f clock) := by
  cases x with
  | ok a => exact h a
  | error outcome => exact .const outcome

theorem legsOutcome_untimed {book book' : Book} (h : book'.untimed = book.untimed)
    (printed : String) (number : Nat) (legs : List ExecutedLeg) :
    legsOutcome book' printed number legs = legsOutcome book printed number legs := by
  have hshown (e : Exchange) : shownAmount? book' e = shownAmount? book e := by
    have huntimed (b : Book) : shownAmount? b.untimed e = shownAmount? b e := rfl
    rw [← huntimed, h, huntimed]
  induction legs generalizing printed number with
  | nil => rfl
  | cons leg legs ih => simp only [legsOutcome, hshown, ih]

theorem legsOutcome_formed (book : Book) {printed : Timed String} (h : Formed printed)
    (number : Nat) (legs : List ExecutedLeg) :
    FormedOutcome fun clock =>
      legsOutcome book (printed clock) number (legs.map (·.shown clock)) := by
  induction legs generalizing printed number with
  | nil => exact .mk h (.const _)
  | cons leg legs ih =>
    have hshown (clock : Nat → Instant) :
        shownAmount? book (leg.shown clock).exchange = shownAmount? book leg.exchange := rfl
    simp only [List.map_cons, legsOutcome, hshown]
    cases shownAmount? book leg.exchange with
    | some shown => exact ih (h.append (legLines_formed number leg shown)) (number + 1)
    | none => exact .mk h (.const _)

def exchangeOutcome (o : ExchangeOptions) (clock : Nat → Instant) (s : Session) :
    Except DeskError (List ExecutedLeg) → Outcome
  | .ok legs => printed o legs s.book
  | .error e => ⟨1, "", errorLog (clock s.readings) s.log ++ s!"Exchange failed: {e.message}\n"⟩

theorem exchangeOutcome_retimed {b : Book} {s s' : Session} (h : s.Alike b b s') (o : ExchangeOptions)
    (clock : Nat → Instant) (result : Except DeskError (List ExecutedLeg)) :
    exchangeOutcome o clock s' result = exchangeOutcome o clock s result := by
  cases result with
  | ok legs => simp only [exchangeOutcome, printed, legsOutcome_untimed h.book_untimed]
  | error e => simp only [exchangeOutcome, h.readings, h.log]

theorem exchangeOutcome_formed (o : ExchangeOptions) (s : Session)
    (result : Except DeskError (List ExecutedLeg)) :
    FormedOutcome fun clock =>
      exchangeOutcome o clock s (result.map (·.map (·.shown clock))) := by
  cases result with
  | ok legs =>
    simp only [Except.map, exchangeOutcome, printed]
    split
    · exact .mk ((legsJson_formed legs).append (.const _)) (.const _)
    · exact legsOutcome_formed s.book (.const "") 1 legs
  | error e => exact .mk (.const _) ((errorLog_formed s.log s.readings).append (.const _))

/-- What an exchange prints for a file and options is one form, filled by the clock. -/
theorem runExchange_formed (files : Files) (o : ExchangeOptions) :
    FormedOutcome fun clock => ended (runExchange files clock o) := by
  unfold runExchange
  refine .bind fun path => .bind fun book => .bind fun request => ?_
  let run (clock : Nat → Instant) :=
    Desk.execute request { clock, atomicity := o.atomicity } { book }
  suffices FormedOutcome fun clock => exchangeOutcome o clock (run clock).2 (run clock).1 by
    obtain ⟨form, hform⟩ := this
    refine ⟨form, fun clock => (hform clock).symm ▸ ?_⟩
    dsimp only [run]
    rcases Desk.execute request { clock, atomicity := o.atomicity } { book } with ⟨_ | legs, s⟩
    · rfl
    · exact apply_ite ended _ _ _
  -- the run by ticks has the form of the run by each clock
  obtain ⟨form, hform⟩ := exchangeOutcome_formed o (run tick).2 (run tick).1
  refine ⟨form, fun clock => ?_⟩
  obtain ⟨hresult, hs⟩ := Desk.execute_retimed request { atomicity := o.atomicity } clock { book }
  calc exchangeOutcome o clock (run clock).2 (run clock).1
    _ = exchangeOutcome o clock (run tick).2 (run clock).1 := exchangeOutcome_retimed hs _ _ _
    _ = exchangeOutcome o clock (run tick).2 ((run tick).1.map (·.map (·.shown clock))) :=
      congrArg _ hresult
    _ = form.fill clock := hform clock

end CommandLine
end ExchangeDesk
