import ExchangeDesk.CommandLine.Run
import ExchangeDesk.Proofs.Cash
import ExchangeDesk.Proofs.Documents
import ExchangeDesk.Proofs.Settings

/-!
# The two output formats

The exchange command ends with 0 exactly if its arguments are well formed and complete, the
book loads and the exchange is made; otherwise it ends with 1 and prints nothing
(`run_exchange`). That holds for both formats with one exception: as text, an amount that
cannot be rounded to cash stops the program after the exchange was made.
-/

namespace ExchangeDesk.CommandLine

variable {files : Files} {clock : Nat → Instant} {settings : List Setting} {args : List String}
  {legs : List ExecutedLeg} {book : Book}

-- ---------------------------------------------------------------------------
-- Legs as text
-- ---------------------------------------------------------------------------

theorem legsOutcome_shown (h : ∀ leg ∈ legs, shownAmount? book leg.exchange ≠ none)
    (printed : String) (number : Nat) :
    (legsOutcome book printed number legs).code = 0 := by
  induction legs generalizing printed number with
  | nil => rfl
  | cons leg legs ih =>
    obtain ⟨hleg, hlegs⟩ := List.forall_mem_cons.mp h
    obtain ⟨shown, hshown⟩ := Option.ne_none_iff_exists'.mp hleg
    rw [legsOutcome, hshown]
    exact ih hlegs _ _

theorem legLines_ne (number : Nat) (leg : ExecutedLeg) (shown : Decimal) :
    legLines number leg shown ≠ "" := by
  intro h
  have hword : (toString "Leg ").length = 4 := rfl
  delta legLines at h
  have hlength := congrArg String.length h
  simp only [String.length_append, hword, String.length_empty] at hlength
  omega

theorem legsOutcome_stopped {shown rest : List ExecutedLeg} {leg : ExecutedLeg}
    (hshown : ∀ leg ∈ shown, shownAmount? book leg.exchange ≠ none)
    (hnone : shownAmount? book leg.exchange = none) (printed : String) (number : Nat) :
    (legsOutcome book printed number (shown ++ leg :: rest)).code = 101 ∧
      (legsOutcome book printed number (shown ++ leg :: rest)).output =
        (legsOutcome book printed number shown).output := by
  induction shown generalizing printed number with
  | nil => simp [legsOutcome, hnone]
  | cons first shown ih =>
    obtain ⟨hfirst, hshown⟩ := List.forall_mem_cons.mp hshown
    obtain ⟨amount, hamount⟩ := Option.ne_none_iff_exists'.mp hfirst
    rw [List.cons_append, legsOutcome, legsOutcome, hamount]
    exact ih hshown _ _

theorem exists_stop (h : ∃ leg ∈ legs, shownAmount? book leg.exchange = none) :
    ∃ shown leg rest, legs = shown ++ leg :: rest ∧
      (∀ leg ∈ shown, shownAmount? book leg.exchange ≠ none) ∧
      shownAmount? book leg.exchange = none := by
  have hfound : (legs.find? fun leg => (shownAmount? book leg.exchange).isNone).isSome := by
    simpa [List.find?_isSome] using h
  obtain ⟨leg, hleg⟩ := Option.isSome_iff_exists.mp hfound
  obtain ⟨hnone, shown, rest, rfl, hshown⟩ := List.find?_eq_some_iff_append.mp hleg
  exact ⟨shown, leg, rest, rfl,
    fun leg hleg => Option.ne_none_iff_isSome.mpr (by simpa using hshown leg hleg),
    Option.isNone_iff_eq_none.mp hnone⟩

-- ---------------------------------------------------------------------------
-- Refusals
-- ---------------------------------------------------------------------------

/-- Ended with 1, and with nothing on the standard output. -/
def Outcome.Refused (o : Outcome) : Prop := o.code = 1 ∧ o.output = ""

/-- An action that fails with nothing but refusals. -/
def Refuses {α : Type} (x : Except Outcome α) : Prop := ∀ o, x = .error o → o.Refused

namespace Refuses

variable {α β : Type} {x : Except Outcome α} {f : α → Except Outcome β}

theorem pure (a : α) : Refuses (.ok a) := by
  rintro o ⟨⟩

theorem refused {o : Outcome} (h : o.Refused) : Refuses (.error o : Except Outcome α) := by
  rintro _ ⟨⟩
  exact h

theorem bind (hx : Refuses x) (hf : ∀ a, Refuses (f a)) : Refuses (x >>= f) := by
  intro o h
  rcases bind_error.mp h with h | ⟨a, -, h⟩
  · exact hx o h
  · exact hf a o h

theorem mapError {ε : Type} {x : Except ε α} {f : ε → Outcome} (h : ∀ e, (f e).Refused) :
    Refuses (x.mapError f) := by
  cases x with
  | ok a => exact .pure a
  | error e => exact .refused (h e)

end Refuses

theorem failure_refused (message : String) : (failure message).Refused := ⟨rfl, rfl⟩

theorem require_refuses {α : Type} (option : String) (o : Option α) :
    Refuses (require option o) := by
  cases o with
  | none => exact .refused (failure_refused _)
  | some a => exact .pure a

theorem loadBook_refuses (files : Files) (path : String) : Refuses (loadBook files path) := by
  refine .bind (.mapError fun _ => failure_refused _) fun text => ?_
  split
  · exact .refused ⟨rfl, rfl⟩
  · exact .mapError fun _ => failure_refused _

theorem requestOf_refuses (o : ExchangeOptions) : Refuses (requestOf o) :=
  .bind (require_refuses _ _) fun _ => .bind (require_refuses _ _) fun _ =>
    .bind (require_refuses _ _) fun _ => .bind (require_refuses _ _) fun _ =>
      .bind (require_refuses _ _) fun _ => .pure _

theorem runExchange_refuses (files : Files) (clock : Nat → Instant) (o : ExchangeOptions) :
    Refuses (runExchange files clock o) := by
  refine .bind (require_refuses _ _) fun path => .bind (loadBook_refuses _ _) fun book =>
    .bind (requestOf_refuses _) fun request => ?_
  dsimp only
  rcases Desk.execute request _ _ with ⟨e | legs, s⟩
  · exact .refused ⟨rfl, rfl⟩
  · dsimp only
    split
    · exact .pure _
    · exact .pure _

-- ---------------------------------------------------------------------------
-- The command
-- ---------------------------------------------------------------------------

theorem require_ok {α : Type} {option : String} {o : Option α} {a : α} :
    require option o = .ok a ↔ o = some a := by
  cases o <;> simp [require]

theorem loadBook_ok {path : String} : loadBook files path = .ok book ↔
    ∃ text snapshot, files path = .ok text ∧ Snapshot.read? text = some snapshot ∧
      Book.ofSnapshot snapshot = .ok book := by
  simp only [loadBook, bind_ok, mapError_ok]
  constructor
  · rintro ⟨text, htext, h⟩
    split at h
    · cases h
    · next snapshot hsnapshot => exact ⟨text, snapshot, htext, hsnapshot, mapError_ok.mp h⟩
  · rintro ⟨text, snapshot, htext, hsnapshot, h⟩
    refine ⟨text, htext, ?_⟩
    rw [hsnapshot]
    exact mapError_ok.mpr h

def printed (o : ExchangeOptions) (legs : List ExecutedLeg) (book : Book) : Outcome :=
  if o.format = "json" then
    ⟨0, (Json.list (ExecutedLeg.toJson instantJson) legs).pretty ++ "\n", ""⟩
  else legsOutcome book "" 1 legs

/-- The book loads and the exchange is made; `book` is the book after it. -/
def Made (files : Files) (clock : Nat → Instant) (o : ExchangeOptions) (legs : List ExecutedLeg)
    (book : Book) : Prop :=
  ∃ path text snapshot loaded request s, o.book = some path ∧ files path = .ok text ∧
    Snapshot.read? text = some snapshot ∧ Book.ofSnapshot snapshot = .ok loaded ∧
    requestOf o = .ok request ∧
    Desk.execute request { clock, atomicity := o.atomicity } { book := loaded } = (.ok legs, s) ∧
    s.book = book

theorem runExchange_ok {o : ExchangeOptions} {outcome : Outcome} :
    runExchange files clock o = .ok outcome ↔
      ∃ legs book, Made files clock o legs book ∧ printed o legs book = outcome := by
  simp only [runExchange, bind_ok, require_ok, loadBook_ok]
  constructor
  · rintro ⟨path, hpath, loaded, ⟨text, snapshot, htext, hsnapshot, hloaded⟩, request, hrequest, h⟩
    split at h
    · next legs s hexecute =>
      refine ⟨legs, s.book, ⟨path, text, snapshot, loaded, request, s, hpath, htext, hsnapshot,
        hloaded, hrequest, hexecute, rfl⟩, ?_⟩
      rw [printed]
      split at h <;> cases h <;> simp_all
    · cases h
  · rintro ⟨legs, book, ⟨path, text, snapshot, loaded, request, s, hpath, htext, hsnapshot, hloaded,
      hrequest, hexecute, rfl⟩, rfl⟩
    refine ⟨path, hpath, loaded, ⟨text, snapshot, htext, hsnapshot, hloaded⟩, request, hrequest, ?_⟩
    rw [hexecute]
    simp only [printed]
    split <;> rfl

theorem requestOf_ok {o : ExchangeOptions} : (∃ request, requestOf o = .ok request) ↔
    o.user.isSome ∧ o.source.isSome ∧ o.target.isSome ∧ o.amount.isSome ∧ o.date.isSome := by
  simp only [requestOf, bind_ok, require_ok, pure_ok, Option.isSome_iff_exists]
  constructor
  · rintro ⟨_, user, huser, source, hsource, target, htarget, amount, hamount, date, hdate, -⟩
    exact ⟨⟨user, huser⟩, ⟨source, hsource⟩, ⟨target, htarget⟩, ⟨amount, hamount⟩, ⟨date, hdate⟩⟩
  · rintro ⟨⟨user, huser⟩, ⟨source, hsource⟩, ⟨target, htarget⟩, ⟨amount, hamount⟩, ⟨date, hdate⟩⟩
    exact ⟨_, user, huser, source, hsource, target, htarget, amount, hamount, date, hdate, rfl⟩

def Complete (settings : List Setting) : Prop :=
  ∀ flag ∈ ["--book", "--user", "--from", "--to", "--amount", "--date"],
    ∃ raw, .value flag raw ∈ settings

theorem complete_iff (h : ∀ s ∈ settings, ExchangeSetting s) : Complete settings ↔
    (exchangeOptions settings).book.isSome ∧
      ∃ request, requestOf (exchangeOptions settings) = .ok request := by
  obtain ⟨hamount, hdate, huser⟩ := exchangeOptions_isSome h
  rw [requestOf_ok, hamount, hdate, huser]
  simp only [Complete, ← lastValue?_isSome, List.forall_mem_cons, List.not_mem_nil,
    IsEmpty.forall_iff, implies_true, and_true]
  rfl

/-- The settings are well formed and complete, the book loads and the exchange is made; `book`
is the book after it. -/
structure Exchanged (files : Files) (clock : Nat → Instant) (settings : List Setting)
    (legs : List ExecutedLeg) (book : Book) : Prop where
  wellFormed : ∀ s ∈ settings, ExchangeSetting s
  complete : Complete settings
  made : Made files clock (exchangeOptions settings) legs book

def Succeeds (files : Files) (clock : Nat → Instant) (args : List String) : Prop :=
  ∃ settings legs book, args = spell settings ∧ Exchanged files clock settings legs book

/-- The exchange is made and printed as text, but an amount taken cannot be rounded to cash. -/
def Overflows (files : Files) (clock : Nat → Instant) (args : List String) : Prop :=
  ∃ settings legs book, args = spell settings ∧ Exchanged files clock settings legs book ∧
    (exchangeOptions settings).format ≠ "json" ∧
    ∃ leg ∈ legs, shownAmount? book leg.exchange = none

theorem run_exchange_ok {o : ExchangeOptions}
    (h : readOptions exchangeFlags exchangeSwitches {} args = .ok o) :
    run files clock ("exchange" :: args) = ended (runExchange files clock o) := by
  simp [run, Command.ofArgs?, h]

theorem run_exchange_error {e : UsageError}
    (h : readOptions exchangeFlags exchangeSwitches {} args = .error e) :
    (run files clock ("exchange" :: args)).Refused := by
  have hcommand : Command.ofArgs? ("exchange" :: args) = .error e := by
    simp [Command.ofArgs?, h]
  rw [run, hcommand]
  cases e <;> exact ⟨rfl, rfl⟩

theorem Exchanged.run (h : Exchanged files clock settings legs book) :
    run files clock ("exchange" :: spell settings) =
      printed (exchangeOptions settings) legs book := by
  have hread := readExchange_ok.mpr ⟨settings, rfl, h.wellFormed, rfl⟩
  rw [run_exchange_ok hread, runExchange_ok.mpr ⟨legs, book, h.made, rfl⟩]
  rfl

theorem run_refused (h : ¬ Succeeds files clock args) :
    (run files clock ("exchange" :: args)).Refused := by
  cases hread : readOptions exchangeFlags exchangeSwitches {} args with
  | error e => exact run_exchange_error hread
  | ok o =>
    obtain ⟨settings, rfl, hsettings, rfl⟩ := readExchange_ok.mp hread
    rw [run_exchange_ok hread]
    cases hrun : runExchange files clock (exchangeOptions settings) with
    | error outcome => exact runExchange_refuses files clock _ outcome hrun
    | ok outcome =>
      obtain ⟨legs, book, hmade, -⟩ := runExchange_ok.mp hrun
      obtain ⟨path, _, _, _, request, _, hpath, _, _, _, hrequest, -⟩ := id hmade
      have hcomplete := (complete_iff hsettings).mpr ⟨by simp [hpath], request, hrequest⟩
      exact absurd ⟨settings, legs, book, rfl, hsettings, hcomplete, hmade⟩ h

theorem run_succeeds (h : Succeeds files clock args) (hprints : ¬ Overflows files clock args) :
    (run files clock ("exchange" :: args)).code = 0 := by
  obtain ⟨settings, legs, book, rfl, hexchanged⟩ := h
  rw [hexchanged.run, printed]
  split
  · rfl
  · next hformat =>
    refine legsOutcome_shown (fun leg hleg hnone => hprints ?_) _ _
    exact ⟨settings, legs, book, rfl, hexchanged, hformat, leg, hleg, hnone⟩

theorem run_overflows (h : Overflows files clock args) :
    (run files clock ("exchange" :: args)).code = 101 := by
  obtain ⟨settings, legs, book, rfl, hexchanged, hformat, hlegs⟩ := h
  obtain ⟨shown, leg, rest, rfl, hshown, hnone⟩ := exists_stop hlegs
  rw [hexchanged.run, printed, if_neg hformat]
  exact (legsOutcome_stopped hshown hnone _ _).1

theorem run_zero : (run files clock ("exchange" :: args)).code = 0 ↔
    Succeeds files clock args ∧ ¬ Overflows files clock args := by
  constructor
  · intro hcode
    have hprints : ¬ Overflows files clock args := fun h => by simp [run_overflows h] at hcode
    refine ⟨?_, hprints⟩
    by_cases h : Succeeds files clock args
    · exact h
    · simp [(run_refused h).1] at hcode
  · rintro ⟨hsucceeds, hprints⟩
    exact run_succeeds hsucceeds hprints

-- ---------------------------------------------------------------------------
-- One format for another
-- ---------------------------------------------------------------------------

theorem Exchanged.replaceFormat {l l' : List Setting} {format : String}
    (h : Exchanged files clock (l ++ .value "--format" format :: l') legs book)
    (format' : String) :
    Exchanged files clock (l ++ .value "--format" format' :: l') legs book where
  wellFormed s hs := by
    rcases List.mem_append.mp hs with hl | hs
    · exact h.wellFormed s (List.mem_append_left _ hl)
    · rcases List.mem_cons.mp hs with rfl | hl'
      · exact .format format'
      · exact h.wellFormed s (List.mem_append_right _ (List.mem_cons_of_mem _ hl'))
  complete flag hflag := by
    obtain ⟨raw, hraw⟩ := h.complete flag hflag
    have hne : flag ≠ "--format" := by
      rintro rfl
      exact absurd hflag (by decide)
    refine ⟨raw, ?_⟩
    simpa [hne] using hraw
  made := by
    rw [exchangeOptions_replaceFormat format' format]
    exact h.made

theorem format_split {before after : List String} {format : String}
    (hformat : format ∈ ["json", "text"]) (h : ∀ s ∈ settings, ExchangeSetting s)
    (hargs : before ++ "--format" :: format :: after = spell settings) :
    ∃ l l', settings = l ++ .value "--format" format :: l' ∧ before = spell l ∧
      after = spell l' := by
  refine spell_split (fun s hs => ⟨?_, ?_⟩) hargs
  · rintro rfl
    exact (h s hs).name_ne_format hformat
  · rintro rfl
    exact absurd (h _ hs).switch_eq (by decide)

theorem Succeeds.replaceFormat {before after : List String} {format : String}
    (hformat : format ∈ ["json", "text"])
    (h : Succeeds files clock (before ++ "--format" :: format :: after)) (format' : String) :
    Succeeds files clock (before ++ "--format" :: format' :: after) := by
  obtain ⟨settings, legs, book, hargs, hexchanged⟩ := h
  obtain ⟨l, l', rfl, rfl, rfl⟩ := format_split hformat hexchanged.wellFormed hargs
  exact ⟨_, legs, book, by simp [spell_append, Setting.args], hexchanged.replaceFormat format'⟩

theorem json_prints {before after : List String} (hlast : "--format" ∉ after) :
    ¬ Overflows files clock (before ++ "--format" :: "json" :: after) := by
  rintro ⟨settings, legs, book, hargs, hexchanged, hformat, -⟩
  obtain ⟨l, l', rfl, rfl, rfl⟩ := format_split (by simp) hexchanged.wellFormed hargs
  rw [exchangeOptions_format] at hformat
  cases hlater : lastValue? l' "--format" with
  | none => simp [hlater] at hformat
  | some later => exact hlast (mem_spell (lastValue?_mem hlater))

/-- If the text overflows although JSON was asked for, a later option asks for text. -/
theorem Overflows.replaceFormat {before after : List String}
    (h : Overflows files clock (before ++ "--format" :: "json" :: after)) :
    Overflows files clock (before ++ "--format" :: "text" :: after) := by
  obtain ⟨settings, legs, book, hargs, hexchanged, hformat, hlegs⟩ := h
  obtain ⟨l, l', rfl, rfl, rfl⟩ := format_split (by simp) hexchanged.wellFormed hargs
  refine ⟨_, legs, book, by simp [spell_append, Setting.args], hexchanged.replaceFormat "text",
    ?_, hlegs⟩
  rw [exchangeOptions_format] at hformat ⊢
  cases hlater : lastValue? l' "--format" with
  | none => simp
  | some later => simpa [hlater] using hformat

theorem run_formats_code {before after : List String} :
    (run files clock ("exchange" :: (before ++ "--format" :: "json" :: after))).code =
        (run files clock ("exchange" :: (before ++ "--format" :: "text" :: after))).code ↔
      (Overflows files clock (before ++ "--format" :: "text" :: after) →
        Overflows files clock (before ++ "--format" :: "json" :: after)) := by
  by_cases htext : Overflows files clock (before ++ "--format" :: "text" :: after)
  · have hmade : Succeeds files clock (before ++ "--format" :: "text" :: after) := by
      obtain ⟨settings, legs, book, hargs, hexchanged, -⟩ := htext
      exact ⟨settings, legs, book, hargs, hexchanged⟩
    by_cases hjson : Overflows files clock (before ++ "--format" :: "json" :: after)
    · simp [run_overflows htext, run_overflows hjson, hjson]
    · have hsucceeds := run_succeeds (hmade.replaceFormat (by simp) "json") hjson
      simp [run_overflows htext, hsucceeds, htext, hjson]
  · have hjson := mt Overflows.replaceFormat htext
    by_cases hmade : Succeeds files clock (before ++ "--format" :: "text" :: after)
    · have hsucceeds := run_succeeds (hmade.replaceFormat (by simp) "json") hjson
      simp [run_succeeds hmade htext, hsucceeds, htext]
    · have hfails : ¬ Succeeds files clock (before ++ "--format" :: "json" :: after) :=
        fun h => hmade (h.replaceFormat (by simp) "text")
      simp [(run_refused hmade).1, (run_refused hfails).1, htext]

theorem shownAmount?_none {e : Exchange} (h : shownAmount? book e = none) :
    ∃ c m, book.findCurrency e.currencyTo = some c ∧ c.multiple = some m ∧ 1 < m ∧
      e.amountTaken.scale = 0 ∧ mantissaBound ≤ e.amountTaken.mantissa + m.toNat := by
  unfold shownAmount? at h
  split at h
  · next c hc =>
    obtain ⟨m, hmultiple, hm, hscale, hlarge⟩ := Currency.cash?_none h
    exact ⟨c, m, hc, hmultiple, hm, hscale, hlarge⟩
  · cases h

/-- The exchange command exits with 0 exactly if `Succeeds` holds and `Overflows` does not, and it
prints nothing if neither holds. Only text overflows, so both formats exit alike unless the text
does: then an amount taken lies within one multiple of the largest decimal, the exchange is made,
and the program stops with 101 after printing the legs before. -/
theorem run_formats (files : Files) (clock : Nat → Instant) :
    (∀ args, ((run files clock ("exchange" :: args)).code = 0 ↔
        Succeeds files clock args ∧ ¬ Overflows files clock args) ∧
      ((run files clock ("exchange" :: args)).code ≠ 0 → ¬ Overflows files clock args →
        (run files clock ("exchange" :: args)).output = "")) ∧
    (∀ before after,
      ((run files clock ("exchange" :: (before ++ "--format" :: "json" :: after))).code =
        (run files clock ("exchange" :: (before ++ "--format" :: "text" :: after))).code ↔
        (Overflows files clock (before ++ "--format" :: "text" :: after) →
          Overflows files clock (before ++ "--format" :: "json" :: after))) ∧
      ("--format" ∉ after →
        ¬ Overflows files clock (before ++ "--format" :: "json" :: after))) ∧
    ∀ settings shown leg rest book, Exchanged files clock settings (shown ++ leg :: rest) book →
      (exchangeOptions settings).format ≠ "json" →
      (∀ leg ∈ shown, shownAmount? book leg.exchange ≠ none) →
      shownAmount? book leg.exchange = none →
        (run files clock ("exchange" :: spell settings)).code = 101 ∧
        (run files clock ("exchange" :: spell settings)).output =
          (legsOutcome book "" 1 shown).output ∧
        ∃ c m, book.findCurrency leg.exchange.currencyTo = some c ∧ c.multiple = some m ∧ 1 < m ∧
          leg.exchange.amountTaken.scale = 0 ∧
          mantissaBound ≤ leg.exchange.amountTaken.mantissa + m.toNat := by
  refine ⟨fun args => ⟨?_, ?_⟩, fun before after => ⟨?_, ?_⟩, ?_⟩
  · exact run_zero
  · intro hcode hprints
    have hfails : ¬ Succeeds files clock args := fun h => hcode (run_succeeds h hprints)
    exact (run_refused hfails).2
  · exact run_formats_code
  · exact json_prints
  · intro settings shown leg rest book hexchanged hformat hshown hnone
    refine and_assoc.mp ⟨?_, shownAmount?_none hnone⟩
    rw [hexchanged.run, printed, if_neg hformat]
    exact legsOutcome_stopped hshown hnone _ _

def steppedDesk : Snapshot :=
  { smallDesk with
    currencies := [⟨⟨"UGX"⟩, "Uganda Shilling", 0, none, none, true⟩,
      ⟨⟨"USD"⟩, "US Dollar", 2, none, none, false⟩, ⟨⟨"EUR"⟩, "Euro", 0, some 50, none, false⟩]
    rates := [⟨openingDay, .buying, ⟨"USD"⟩, .ofUInt32 1⟩,
      ⟨openingDay, .selling, ⟨"EUR"⟩, .ofUInt32 1⟩] }

def steppedBook : Book := (Book.ofSnapshot steppedDesk).toOption.getD .empty

theorem steppedDesk_read : ∃ snapshot, Snapshot.read? steppedDesk.toJson.compact = some snapshot ∧
    Book.ofSnapshot snapshot = .ok steppedBook := by
  have hwords : steppedDesk.InWords :=
    ⟨by simp [steppedDesk, smallDesk, Cashier.InWords, UInt64.size],
      by simp [steppedDesk, smallDesk, UInt64.size]⟩
  exact ⟨_, Snapshot.read?_of_toJson hwords (Json.read_compact (Snapshot.toJson_plain hwords)),
    (Book.ofSnapshot_dropZeroSigns _ _).mpr rfl⟩

def largestExchange (format : String) : List Setting := [
  .value "--book" "desk.json", .value "--from" "USD", .value "--to" "EUR",
  .value "--amount" "79228162514264337593543950335", .value "--date" "2026-07-01",
  .value "--user" "7", .value "--format" format]

def largestRequest : ExchangeRequest :=
  { currencyFrom := ⟨"USD"⟩, currencyTo := ⟨"EUR"⟩, amount := .whole 79228162514264337593543950335
    date := openingDay, user := ⟨⟨7⟩, ⟨7⟩⟩, client := ⟨none, none⟩ }

theorem largestExchange_executed : ∃ first second s,
    Desk.execute largestRequest { clock := fun _ => ⟨0⟩ } { book := steppedBook } =
      (.ok [first, second], s) ∧
    shownAmount? s.book first.exchange ≠ none ∧ shownAmount? s.book second.exchange = none := by
  have hshown : (Desk.execute largestRequest { clock := fun _ => ⟨0⟩ }
      { book := steppedBook }).1.map (·.map fun leg =>
        (shownAmount? (Desk.execute largestRequest { clock := fun _ => ⟨0⟩ }
          { book := steppedBook }).2.book leg.exchange).isSome) = .ok [true, false] := by
    decide +kernel
  generalize Desk.execute largestRequest { clock := fun _ => ⟨0⟩ } { book := steppedBook } = out
    at hshown
  obtain ⟨answer, s⟩ := out
  cases answer with
  | error e => cases hshown
  | ok legs =>
    obtain ⟨first, _, rfl, hfirst, htail⟩ := List.map_eq_cons_iff.mp (Except.ok.inj hshown)
    obtain ⟨second, _, rfl, hsecond, hnil⟩ := List.map_eq_cons_iff.mp htail
    obtain rfl := List.map_eq_nil_iff.mp hnil
    exact ⟨first, second, s, rfl, Option.ne_none_iff_isSome.mpr hfirst, by simpa using hsecond⟩

theorem largestExchange_exchanged : ∃ first second book, (∀ format,
    Exchanged (fun _ => .ok steppedDesk.toJson.compact) (fun _ => ⟨0⟩) (largestExchange format)
      [first, second] book) ∧
    shownAmount? book first.exchange ≠ none ∧ shownAmount? book second.exchange = none := by
  obtain ⟨first, second, s, hexecute, hfirst, hsecond⟩ := largestExchange_executed
  refine ⟨first, second, s.book, fun format => ⟨?_, ?_, ?_⟩, hfirst, hsecond⟩
  · have hamount : Decimal.read "79228162514264337593543950335" =
        .ok (.whole 79228162514264337593543950335) := by decide +kernel
    have hdate : Date.read .strict "2026-07-01" = .ok openingDay := by decide +kernel
    have huser : Text.unsigned? "7".toList = some 7 := by decide +kernel
    simp only [largestExchange, List.forall_mem_cons, List.not_mem_nil, IsEmpty.forall_iff,
      implies_true, and_true]
    exact ⟨.text _ (by decide), .text _ (by decide), .text _ (by decide), .amount hamount,
      .date hdate, .id (by decide) huser (by decide), .format format⟩
  · simp [Complete, largestExchange]
  · have hamount : amountValue "79228162514264337593543950335" =
        .ok (.whole 79228162514264337593543950335) := by decide +kernel
    have hdate : dateValue "2026-07-01" = .ok openingDay := by decide +kernel
    have huser : idValue "--user" "7" = .ok 7 := by decide +kernel
    obtain ⟨snapshot, hread, hloaded⟩ := steppedDesk_read
    refine ⟨"desk.json", _, _, steppedBook, largestRequest, s, ?_, rfl, hread, hloaded, ?_, ?_, rfl⟩
    · simp [exchangeOptions, largestExchange, lastValue?, Setting.valueOf?]
    · simp [exchangeOptions, largestExchange, lastValue?, Setting.valueOf?, hamount, hdate, huser,
        requestOf, require, Except.toOption, bind, Except.bind, pure, Except.pure, largestRequest]
    · have hatomicity : (exchangeOptions (largestExchange format)).atomicity = .allLegs := by
        simp [exchangeOptions, largestExchange]
      rw [hatomicity]
      exact hexecute

def largestRun (format : String) : Outcome :=
  run (fun _ => .ok steppedDesk.toJson.compact) (fun _ => ⟨0⟩)
    ("exchange" :: spell (largestExchange format))

/-- The first leg is printed before the second stops the program. -/
theorem run_formats_largest :
    (largestRun "json").code = 0 ∧ (largestRun "text").code = 101 ∧
      (largestRun "text").output ≠ "" := by
  obtain ⟨first, second, book, hexchanged, hfirst, hsecond⟩ := largestExchange_exchanged
  obtain ⟨hcode, hpair, hstop⟩ :=
    run_formats (fun _ => .ok steppedDesk.toJson.compact) fun _ => ⟨0⟩
  have hprints := (hpair (spell (largestExchange "json").dropLast) []).2 (by simp)
  have hlast : spell (largestExchange "json").dropLast ++ "--format" :: "json" :: [] =
      spell (largestExchange "json") := rfl
  rw [hlast] at hprints
  have hjson := (hcode (spell (largestExchange "json"))).1.mpr
    ⟨⟨_, _, _, rfl, hexchanged "json"⟩, hprints⟩
  obtain ⟨htext, houtput, -⟩ := hstop (largestExchange "text") [first] second [] book
    (hexchanged "text") (by simp [exchangeOptions, largestExchange, lastValue?, Setting.valueOf?])
    (by simpa using hfirst) hsecond
  obtain ⟨shown, hshown⟩ := Option.ne_none_iff_exists'.mp hfirst
  refine ⟨hjson, htext, ?_⟩
  rw [largestRun, houtput]
  simp only [legsOutcome, hshown, String.empty_append]
  exact legLines_ne 1 first shown

end ExchangeDesk.CommandLine
