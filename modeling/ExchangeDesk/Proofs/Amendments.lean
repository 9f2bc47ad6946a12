import ExchangeDesk.Proofs.Granted
import ExchangeDesk.Proofs.Meaning
import ExchangeDesk.Proofs.Reachable

/-!
# Records that are corrected or deleted

An update of an exchange record looks it up, checks the references that the changes name and writes
once; a deletion is one call. Both are exact about when they succeed (`updateExchange_ok`,
`deleteExchange_ok`), touch one place of the book and leave it as it was if they fail
(`exchanges_local`).
-/

namespace ExchangeDesk

open ExchangeDesk.Action

def ExchangeChange.lookup? : ExchangeChange → Option StoreCall
  | .rate _ => some .findRate
  | .currencyFrom _ | .currencyTo _ => some .findCurrency
  | _ => none

def updateCalls : List ExchangeChange → List StoreCall
  | [] => [.findExchange]
  | c :: rest =>
    .findExchange :: ((c :: rest).filterMap ExchangeChange.lookup? ++ [.replaceExchange])

def updateLines (id : ExchangeId) : List ExchangeChange → List LogLine
  | [] => []
  | c :: rest =>
    let fields := ", ".intercalate ((c :: rest).map ExchangeChange.field)
    [if (c :: rest).any ExchangeChange.diverges then
      ⟨.warn, .engine, s!"forex exchange {id} updated ({fields}); " ++
        "cashier and journal postings were not re-issued"⟩
    else ⟨.info, .engine, s!"forex exchange {id} updated ({fields})"⟩]

def Session.updated (s : Session) (id : ExchangeId) (next : Exchange)
    (applied : List ExchangeChange) : Session :=
  { s with
    book := if applied = [] then s.book else s.book.putExchange next
    calls := s.calls ++ updateCalls applied
    log := s.log ++ updateLines id applied }

theorem Session.updated_nil {s : Session} {id : ExchangeId} {next : Exchange} :
    s.updated id next [] = s.called [.findExchange] := by
  simp [updated, called, updateCalls, updateLines]

theorem Session.updated_cons {s : Session} {id : ExchangeId} {next : Exchange} {c : ExchangeChange}
    {rest : List ExchangeChange} : s.updated id next (c :: rest) =
      { s.called (updateCalls (c :: rest)) with
        book := s.book.putExchange next, log := s.log ++ updateLines id (c :: rest) } := rfl

def Session.deleted (s : Session) (id : ExchangeId) : Session :=
  { s.called [.deleteExchange] with
    book := (s.book.deleteExchange id).2
    log := s.log ++ [⟨.warn, .engine, s!"forex exchange {id} deleted; " ++
      "its cashier and journal postings were not reversed"⟩] }

namespace Desk

variable {env : Environment} {s t : Session} {id : ExchangeId} {changes : ExchangeChanges}
  {applied : List ExchangeChange}

-- ---------------------------------------------------------------------------
-- References
-- ---------------------------------------------------------------------------

theorem checkReference_rate (id : RateId) :
    checkReference (.rate id) = do let _ ← retrieveRate id; return () :=
  (bind_assoc _ _ _).symm

theorem checkReference_grants (c : ExchangeChange) : Grants (checkReference c) env s
    c.lookup?.toList fun _ => Referenced env s.book c := by
  have hnone : Grants (return () : Action DeskError Unit) env s [] fun _ => True :=
    Grants.mono (Grants.pure ()) (by simp)
  cases c with
  | rate id =>
    rw [checkReference_rate]
    exact (retrieveRate_grants id).required
  | currencyFrom code => exact (requireCurrency_grants code).required
  | currencyTo code => exact (requireCurrency_grants code).required
  | clientId => exact hnone
  | clientName => exact hnone
  | date => exact hnone
  | amountGiven => exact hnone
  | amountTaken => exact hnone

theorem checkReferences_grants (applied : List ExchangeChange) :
    Grants (checkReferences applied) env s (applied.filterMap ExchangeChange.lookup?)
      fun _ => ∀ c ∈ applied, Referenced env s.book c := by
  induction applied generalizing s with
  | nil => exact Grants.mono (Grants.pure ()) (by simp)
  | cons c rest ih =>
    have hcalls : (c :: rest).filterMap ExchangeChange.lookup? =
        c.lookup?.toList ++ rest.filterMap ExchangeChange.lookup? := by
      cases h : c.lookup? <;> simp [h]
    rw [hcalls]
    exact Grants.mono (Grants.bind (checkReference_grants c) fun _ _ => ih) (by simp)

-- ---------------------------------------------------------------------------
-- Updating
-- ---------------------------------------------------------------------------

theorem note_either {ε α : Type} {p : Prop} [Decidable p] {level level' : LogLevel}
    {source source' : LogSource} {text text' : String} {a : α} :
    (if p then do note level source text; return a else do note level' source' text'; return a :
      Action ε α) env s = (.ok a, { s with
        log := s.log ++ [if p then ⟨level, source, text⟩ else ⟨level', source', text'⟩] }) := by
  split
  · rfl
  · rfl

/-- After any calls the record is still there to be replaced. -/
theorem replaceExchange_bind_ok {β : Type} {f : Unit → Action DeskError β} {answer : β}
    {next e : Exchange} {calls : List StoreCall} (h : s.book.findExchange next.id = some e) :
    (concealing .forexExchange (Store.replaceExchange next) >>= f) env (s.called calls) =
        (.ok answer, t) ↔
      env.Passes (s.calls ++ calls) [.replaceExchange] ∧
        f () env { s.called (calls ++ [.replaceExchange]) with book := s.book.putExchange next } =
          (.ok answer, t) := by
  rw [← Session.called_called]
  exact replace_bind_ok .replaceExchange (Book.replaceExchange_found h)

/-- What an update does once the lookup and `apply` have succeeded. -/
theorem updateExchange_of_apply {current next : Exchange} {applied' : List ExchangeChange}
    (hfound : s.book.findExchange id = some current)
    (happly : current.apply changes = .ok (next, applied')) :
    updateExchange id changes env s = (.ok applied, t) ↔ applied' = applied ∧
      (∀ c ∈ applied', Referenced env s.book c) ∧ env.Passes s.calls (updateCalls applied') ∧
        s.updated id next applied' = t := by
  have hid : current.id = id := by simpa using List.find?_some hfound
  have hnext : s.book.findExchange next.id = some current := by
    rw [(Exchange.apply_ok happly).2.1, Exchange.replay_id, hid, hfound]
  rw [updateExchange, (retrieveExchange_grants id).run_bind_ok]
  simp only [hfound, happly, Option.some.injEq, exists_eq_left', Grants.ofExcept.run_bind_ok,
    Except.ok.injEq, Session.called_nil]
  cases applied' with
  | nil =>
    show _ ∧ _ ∧ (Except.ok [], s.called [.findExchange]) = (.ok applied, t) ↔ _
    simp [Environment.Passes, updateCalls, Session.updated_nil, and_left_comm]
  | cons c rest =>
    have hcalls : env.Passes s.calls (updateCalls (c :: rest)) ↔
        env.Passes s.calls [.findExchange] ∧
        env.Passes (s.calls ++ [.findExchange]) ((c :: rest).filterMap ExchangeChange.lookup?) ∧
        env.Passes (s.calls ++ ([.findExchange] ++ (c :: rest).filterMap ExchangeChange.lookup?))
          [.replaceExchange] := by
      rw [← List.append_assoc, ← Environment.passes_append, ← Environment.passes_append]
      rfl
    simp only [List.isEmpty_cons, Bool.false_eq_true, if_false, hcalls, Session.called_called,
      (checkReferences_grants (c :: rest)).run_bind_ok, replaceExchange_bind_ok hnext, note_either,
      Session.updated_cons, Prod.mk.injEq, Except.ok.injEq, exists_const]
    tauto

theorem updateExchange_ok : updateExchange id changes env s = (.ok applied, t) ↔
    ∃ current next, Corrected env s.book id changes current next applied ∧
      env.Passes s.calls (updateCalls applied) ∧ t = s.updated id next applied := by
  constructor
  · intro h
    obtain ⟨current, next, hcorrected, -⟩ := (updateExchange_spec id changes).ok h
    obtain ⟨-, -, hcalls, rfl⟩ :=
      (updateExchange_of_apply hcorrected.found hcorrected.applies).mp h
    exact ⟨current, next, hcorrected, hcalls, rfl⟩
  · rintro ⟨current, next, hcorrected, hcalls, rfl⟩
    exact (updateExchange_of_apply hcorrected.found hcorrected.applies).mpr
      ⟨rfl, hcorrected.referenced, hcalls, rfl⟩

-- ---------------------------------------------------------------------------
-- Deleting
-- ---------------------------------------------------------------------------

theorem deleteExchange_passed (h : env.Passes s.calls [.deleteExchange]) :
    deleteExchange id env s = if (s.book.findExchange id).isSome then (.ok (), s.deleted id)
      else (.error (.exchangeNotFound id), s.called [.deleteExchange]) := by
  have hcall : concealing .forexExchange (Store.deleteExchange id) env s =
      (.ok (s.book.findExchange id).isSome,
        { s.called [.deleteExchange] with book := (s.book.deleteExchange id).2 }) :=
    Discreet.call_passed h.1 rfl
  rw [deleteExchange, run_bind_value hcall]
  cases hfound : s.book.findExchange id with
  | some e => rfl
  | none =>
    rw [Book.deleteExchange_absent hfound]
    rfl

theorem deleteExchange_failed (id : ExchangeId) (h : ¬ env.Passes s.calls [.deleteExchange]) :
    (deleteExchange id env s).1 = .error (.dataIntegrity .forexExchange) := by
  obtain ⟨cause, hfault⟩ : ∃ cause,
      env.faults .deleteExchange (s.calls.count .deleteExchange) = some cause :=
    Option.ne_none_iff_exists'.mp fun hfault => h ⟨hfault, trivial⟩
  have hcall : concealing .forexExchange (Store.deleteExchange id) env s = _ :=
    Discreet.call_failed hfault
  rw [deleteExchange, run_bind_error hcall]
  rfl

theorem deleteExchange_ok {u : Unit} : deleteExchange id env s = (.ok u, t) ↔
    (∃ e, s.book.findExchange id = some e) ∧ env.Passes s.calls [.deleteExchange] ∧
      t = s.deleted id := by
  by_cases hcall : env.Passes s.calls [.deleteExchange]
  · rw [deleteExchange_passed hcall]
    cases s.book.findExchange id with
    | some e => simp [hcall, eq_comm]
    | none => simp
  · have hfailed := deleteExchange_failed id hcall
    constructor
    · intro h
      rw [h] at hfailed
      cases hfailed
    · rintro ⟨-, hpassed, -⟩
      exact absurd hpassed hcall

theorem deleteExchange_error {e : DeskError} (h : deleteExchange id env s = (.error e, t)) :
    e = .exchangeNotFound id ∧ s.book.findExchange id = none ∨
      e = .dataIntegrity .forexExchange ∧ ¬ env.Passes s.calls [.deleteExchange] := by
  by_cases hcall : env.Passes s.calls [.deleteExchange]
  · rw [deleteExchange_passed hcall] at h
    split at h
    · cases h
    · next habsent =>
      cases h
      exact .inl ⟨rfl, Option.not_isSome_iff_eq_none.mp habsent⟩
  · have hfailed := deleteExchange_failed id hcall
    rw [h] at hfailed
    cases hfailed
    exact .inr ⟨rfl, hcall⟩

-- ---------------------------------------------------------------------------
-- One place of the book
-- ---------------------------------------------------------------------------

theorem updated_place {current next : Exchange} (hb : Reachable s.book)
    (h : Corrected env s.book id changes current next applied) : ∃ before after,
      s.book.exchanges = before ++ current :: after ∧ current.id = id ∧
      (s.updated id next applied).book = { s.book with exchanges := before ++ next :: after } ∧
      (s.updated id next applied).book.findExchange id = some next := by
  obtain ⟨before, after, hplace, hid, hothers⟩ := exists_place_of_find? hb.drawn.distinct h.found
  have hnext : next.id = id := h.id_eq.2
  have hbook : (s.updated id next applied).book =
      { s.book with exchanges := before ++ next :: after } := by
    cases applied with
    | nil =>
      obtain rfl : next = current := (Exchange.apply_ok h.applies).2.1
      rw [← hplace]
      rfl
    | cons c rest =>
      show s.book.putExchange next = _
      rw [Book.putExchange, hplace, hnext, map_at_key hid hothers]
  refine ⟨before, after, hplace, hid, hbook, ?_⟩
  rw [hbook]
  exact find?_at_key hnext hothers

theorem deleted_place {e : Exchange} (hb : Reachable s.book)
    (hfound : s.book.findExchange id = some e) : ∃ before after,
      s.book.exchanges = before ++ e :: after ∧ e.id = id ∧
      (s.book.deleteExchange id).2 = { s.book with exchanges := before ++ after } ∧
      (s.book.deleteExchange id).2.findExchange id = none := by
  obtain ⟨before, after, hplace, hid, hothers⟩ := exists_place_of_find? hb.drawn.distinct hfound
  have hbook : (s.book.deleteExchange id).2 = { s.book with exchanges := before ++ after } := by
    rw [Book.deleteExchange, hplace, filter_at_key hid hothers]
  refine ⟨before, after, hplace, hid, hbook, ?_⟩
  rw [hbook]
  exact List.find?_eq_none.mpr (by simpa using hothers)

/-- A warning is logged exactly for a change of something else than the client. -/
theorem updateLines_warn : (∃ l ∈ updateLines id applied, l.level = .warn) ↔
    ∃ c ∈ applied, (∀ text, c ≠ .clientId text) ∧ ∀ text, c ≠ .clientName text := by
  have hdiverges (c : ExchangeChange) : c.diverges = true ↔
      (∀ text, c ≠ .clientId text) ∧ ∀ text, c ≠ .clientName text := by
    cases c <;> simp [ExchangeChange.diverges]
  simp only [← hdiverges]
  cases applied with
  | nil => simp [updateLines]
  | cons c rest =>
    rw [updateLines, ← List.any_eq_true]
    split
    · next h => simp [h]
    · next h => simp [h]

/-- An update succeeds exactly if the record is stored and takes the changes, all they refer to
exists (`Referenced`) and the calls get through (`Passes`). It puts the corrected record in its
place, makes no write without a change, and logs a warning exactly if a change is not about the
client. A deletion removes the record. An error of either leaves the book as it was. -/
theorem exchanges_local (hb : Reachable s.book) (env : Environment) (id : ExchangeId)
    (changes : ExchangeChanges) :
    (∀ applied, (∃ t, updateExchange id changes env s = (.ok applied, t)) ↔
      ∃ current next, s.book.findExchange id = some current ∧
        current.apply changes = .ok (next, applied) ∧
        (∀ c ∈ applied, Referenced env s.book c) ∧ env.Passes s.calls (updateCalls applied)) ∧
    (∀ applied t, updateExchange id changes env s = (.ok applied, t) →
      ∃ current next before after, current.apply changes = .ok (next, applied) ∧
        s.book.exchanges = before ++ current :: after ∧ current.id = id ∧
        t = { s with
          book.exchanges := before ++ next :: after
          calls := s.calls ++ updateCalls applied
          log := s.log ++ updateLines id applied } ∧
        t.book.findExchange id = some next ∧
        (applied = [] → t = s.called [.findExchange]) ∧
        ((∃ l ∈ updateLines id applied, l.level = .warn) ↔
          ∃ c ∈ applied, (∀ text, c ≠ .clientId text) ∧ ∀ text, c ≠ .clientName text)) ∧
    (∀ e t, updateExchange id changes env s = (.error e, t) → t.book = s.book) ∧
    ((∃ t, deleteExchange id env s = (.ok (), t)) ↔
      (∃ e, s.book.findExchange id = some e) ∧ env.Passes s.calls [.deleteExchange]) ∧
    (∀ t, deleteExchange id env s = (.ok (), t) → ∃ e before after,
      s.book.exchanges = before ++ e :: after ∧ e.id = id ∧
        t.book = { s.book with exchanges := before ++ after } ∧ t.book.findExchange id = none) ∧
    ∀ e t, deleteExchange id env s = (.error e, t) → t.book = s.book ∧
      (e = .exchangeNotFound id ∧ s.book.findExchange id = none ∨
        e = .dataIntegrity .forexExchange ∧ ¬ env.Passes s.calls [.deleteExchange]) := by
  refine ⟨fun applied => ?_, fun applied t h => ?_, fun e t h => ?_, ?_, fun t h => ?_,
    fun e t h => ?_⟩
  · constructor
    · rintro ⟨t, h⟩
      obtain ⟨current, next, hcorrected, hcalls, -⟩ := updateExchange_ok.mp h
      exact ⟨current, next, hcorrected.found, hcorrected.applies, hcorrected.referenced, hcalls⟩
    · rintro ⟨current, next, hfound, happly, hreferenced, hcalls⟩
      exact ⟨_, updateExchange_ok.mpr ⟨current, next, ⟨hfound, happly, hreferenced⟩, hcalls, rfl⟩⟩
  · obtain ⟨current, next, hcorrected, hcalls, rfl⟩ := updateExchange_ok.mp h
    obtain ⟨before, after, hplace, hid, hbook, hfound⟩ := updated_place hb hcorrected
    refine ⟨current, next, before, after, hcorrected.applies, hplace, hid, ?_, hfound, ?_,
      updateLines_warn⟩
    · rw [← hbook]
      rfl
    · rintro rfl
      exact Session.updated_nil
  · exact ((updateExchange_spec id changes).error h).book
  · constructor
    · rintro ⟨t, h⟩
      obtain ⟨hfound, hcall, -⟩ := deleteExchange_ok.mp h
      exact ⟨hfound, hcall⟩
    · rintro ⟨hfound, hcall⟩
      exact ⟨_, deleteExchange_ok.mpr ⟨hfound, hcall, rfl⟩⟩
  · obtain ⟨⟨e, hfound⟩, -, rfl⟩ := deleteExchange_ok.mp h
    exact ⟨e, deleted_place hb hfound⟩
  · exact ⟨((deleteExchange_spec id).error h).book, deleteExchange_error h⟩

def exchanged : Session := run [({}, .execute smallRequest)] { book := smallBook }

def otherRate : ExchangeChanges := { rate := some ⟨2⟩, clientName := some (some "Akello") }

def withoutCurrencies : Environment :=
  { faults := fun call _ => if call = .findCurrency then some (.unavailable "offline") else none }

theorem exchanges_local_otherRate : Reachable exchanged.book ∧
    (∃ t, updateExchange ⟨1⟩ otherRate withoutCurrencies exchanged =
        (.ok [.rate ⟨2⟩, .clientName (some "Akello")], t) ∧
      (t.book.findExchange ⟨1⟩).map (·.rate) = some ⟨2⟩ ∧
      t.book.journal = exchanged.book.journal ∧ ∃ l ∈ t.log, l.level = .warn) ∧
    ∃ t, deleteExchange ⟨1⟩ withoutCurrencies exchanged = (.ok (), t) ∧
      t.book.findExchange ⟨1⟩ = none ∧ t.book.journal = exchanged.book.journal := by
  have hreachable : Reachable exchanged.book :=
    Reachable.run (s := { book := smallBook }) (.of_snapshot smallBook_loaded) _
  have hrecord : ∃ current ∈ exchanged.book.exchanges,
      exchanged.book.findExchange ⟨1⟩ = some current ∧ (current.apply otherRate).map Prod.snd =
        .ok [.rate ⟨2⟩, .clientName (some "Akello")] := by decide +kernel
  have hrate : ∃ rate ∈ exchanged.book.rates, exchanged.book.findRate ⟨2⟩ = some rate := by
    decide +kernel
  obtain ⟨current, -, hfound, hchanges⟩ := hrecord
  obtain ⟨rate, -, hrate⟩ := hrate
  obtain ⟨hok, hplace, -, hdeletes, hdeleted, -⟩ :=
    exchanges_local hreachable withoutCurrencies ⟨1⟩ otherRate
  refine ⟨hreachable, ?_, ?_⟩
  · rcases happly : current.apply otherRate with _ | ⟨next, applied⟩
    · rw [happly] at hchanges
      cases hchanges
    · rw [happly] at hchanges
      cases hchanges
      obtain ⟨t, hrun⟩ := (hok _).mpr ⟨current, next, hfound, happly,
        by simp [Referenced, hrate], rfl, rfl, rfl, trivial⟩
      obtain ⟨_, next, before, after, happly, -, -, rfl, hnext, -, hwarn⟩ := hplace _ t hrun
      obtain ⟨l, hl, hlevel⟩ := hwarn.mpr ⟨.rate ⟨2⟩, by simp, by simp, by simp⟩
      refine ⟨_, hrun, ?_, rfl, l, List.mem_append_right _ hl, hlevel⟩
      rw [hnext, (Exchange.apply_ok happly).2.1]
      rfl
  · obtain ⟨t, hrun⟩ := hdeletes.mpr ⟨⟨current, hfound⟩, rfl, trivial⟩
    obtain ⟨_, _, _, -, -, hbook, habsent⟩ := hdeleted t hrun
    exact ⟨t, hrun, habsent, by rw [hbook]⟩

end Desk
end ExchangeDesk
