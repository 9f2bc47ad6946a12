import ExchangeDesk.Proofs.Calm
import ExchangeDesk.Proofs.Coupling
import ExchangeDesk.Proofs.Records

/-!
# Two stores that fail alike

Two environments in which the same calls fail, each in its own words, cannot be told
apart by what an action answers: a discreet action gives the same value or error in
both and leaves sessions that differ in nothing but the words of the store
(`Session.redacted`). It writes one line about each call that failed, with the cause
that the environment has for it, and no other line of the store (`Session.Reports`).
-/

namespace ExchangeDesk

open ExchangeDesk.Action

-- ---------------------------------------------------------------------------
-- Hiding the words of a store
-- ---------------------------------------------------------------------------

/-- A line as it looks to those who may not read the words of a store. -/
def LogLine.redacted (l : LogLine) : LogLine :=
  if l.source = .store then { l with text := "" } else l

def Session.redacted (s : Session) : Session := { s with log := s.log.map (·.redacted) }

/-- Sessions that differ in nothing but the words of the store. -/
def Session.RedactedAlike (s s' : Session) : Prop := s'.redacted = s.redacted

/-- The same calls fail, by errors of any kind and in any words. -/
structure Environment.FailsLike (env env' : Environment) : Prop where
  faults : ∀ call n, (env'.faults call n).isSome = (env.faults call n).isSome
  registry : env'.registry = env.registry
  clock : env'.clock = env.clock
  rateScale : env'.rateScale = env.rateScale
  atomicity : env'.atomicity = env.atomicity

-- ---------------------------------------------------------------------------
-- Lines about failed calls
-- ---------------------------------------------------------------------------

def StoreCall.resource : StoreCall → Resource
  | .findRateAsOf | .findRate | .listRates | .insertRate | .replaceRate => .exchangeRate
  | .findCurrency | .homeCurrencies => .organisationCurrency
  | .findCashier => .cashier
  | .findAccount => .activityAccount
  | .recordTransaction => .cashierTransaction
  | .postEntry => .journalEntry
  | .findExchange | .listExchanges | .replaceExchange | .deleteExchange | .begin | .insertExchange
  | .commit => .forexExchange

def StoreCall.report (call : StoreCall) (cause : StoreError) : LogLine :=
  ⟨.error, .store, s!"{call.resource.name} store failure: {cause.message}"⟩

theorem StoreCall.report_redacted (call : StoreCall) (cause cause' : StoreError) :
    (call.report cause').redacted = (call.report cause).redacted := rfl

section

variable {s s' : Session}

theorem Session.redacted_calls (h : s'.redacted = s.redacted) : s'.calls = s.calls := by
  have hcalls : s'.redacted.calls = s.redacted.calls := by rw [h]
  exact hcalls

theorem Session.redacted_called (h : s'.redacted = s.redacted) (call : StoreCall) :
    Session.redacted { s' with calls := s'.calls ++ [call] } =
      Session.redacted { s with calls := s.calls ++ [call] } :=
  congrArg (fun s : Session => { s with calls := s.calls ++ [call] }) h

theorem Session.redacted_logged (h : s'.redacted = s.redacted) {l l' : LogLine}
    (hl : l'.redacted = l.redacted) : Session.redacted { s' with log := s'.log ++ [l'] } =
      Session.redacted { s with log := s.log ++ [l] } := by
  have hlog (s : Session) (l : LogLine) : Session.redacted { s with log := s.log ++ [l] } =
      { s.redacted with log := s.redacted.log ++ [l.redacted] } := by simp [redacted]
  rw [hlog, hlog, h, hl]

end

/-- One line for each of the calls that the environment fails, `before` being those
made earlier. -/
def Environment.reports (env : Environment) (before : List StoreCall) :
    List StoreCall → List LogLine
  | [] => []
  | call :: rest =>
    ((env.faults call (before.count call)).map call.report).toList ++
      env.reports (before ++ [call]) rest

theorem Environment.reports_append (env : Environment) (before made later : List StoreCall) :
    env.reports before (made ++ later) =
      env.reports before made ++ env.reports (before ++ made) later := by
  induction made generalizing before with
  | nil => simp [reports]
  | cons call rest ih => simp [reports, ih]

/-- Between the two sessions the store has logged one line for each failed call and no other. -/
def Session.Reports (env : Environment) (s s' : Session) : Prop :=
  ∃ made lines, s'.calls = s.calls ++ made ∧ s'.log = s.log ++ lines ∧
    lines.filter (·.source = .store) = env.reports s.calls made

namespace Session.Reports

variable {env : Environment} {s s' s'' : Session}

theorem silent (hcalls : s'.calls = s.calls) (hlog : s'.log = s.log) : Reports env s s' :=
  ⟨[], [], by simp [hcalls], by simp [hlog], rfl⟩

theorem trans (h : Reports env s s') (h' : Reports env s' s'') : Reports env s s'' := by
  obtain ⟨made, lines, hcalls, hlog, hlines⟩ := h
  obtain ⟨made', lines', hcalls', hlog', hlines'⟩ := h'
  refine ⟨made ++ made', lines ++ lines', ?_, ?_, ?_⟩
  · rw [hcalls', hcalls, List.append_assoc]
  · rw [hlog', hlog, List.append_assoc]
  · rw [List.filter_append, hlines, hlines', Environment.reports_append, hcalls]

end Session.Reports

-- ---------------------------------------------------------------------------
-- Actions on either side of a call
-- ---------------------------------------------------------------------------

variable {ε α β : Type} {env env' : Environment} {s s' : Session}

/-- The action asks no store and logs nothing. It sees neither the log nor how calls
fail. -/
structure Silent (x : Action ε α) : Prop where
  calls : ∀ env s, (x env s).2.calls = s.calls
  log : ∀ env s, (x env s).2.log = s.log
  blind : ∀ env s, x env s.redacted = ((x env s).1, (x env s).2.redacted)
  settings : ∀ {env env'}, env.FailsLike env' → x env' = x env

namespace Silent

variable {x : Action ε α}

theorem pure (a : α) : Silent (Pure.pure a : Action ε α) :=
  ⟨fun _ _ => rfl, fun _ _ => rfl, fun _ _ => rfl, fun _ => rfl⟩

theorem fail (e : ε) : Silent (fail e : Action ε α) :=
  ⟨fun _ _ => rfl, fun _ _ => rfl, fun _ _ => rfl, fun _ => rfl⟩

theorem ofExcept (o : Except ε α) : Silent (ofExcept o) :=
  ⟨fun _ _ => rfl, fun _ _ => rfl, fun _ _ => rfl, fun _ => rfl⟩

theorem orFail (e : ε) (o : Option α) : Silent (orFail e o) := by
  cases o with
  | some a => exact pure a
  | none => exact fail e

theorem readClock : Silent (readClock : Action ε Instant) :=
  ⟨fun _ _ => rfl, fun _ _ => rfl, fun _ _ => rfl, fun h => by
    funext s
    rw [Action.readClock, Action.readClock, h.clock]⟩

theorem read {g : List Currency → Book → α}
    (hx : ∀ env s, x env s = (.ok (g env.registry s.book), s)) : Silent x where
  calls env s := by rw [hx]
  log env s := by rw [hx]
  blind env s := by rw [hx, hx]; rfl
  settings h := by
    funext s
    rw [hx, hx, h.registry]

theorem write {g : Session → α} {t : Session → Session}
    (hx : ∀ env s, x env s = (.ok (g s), t s)) (hcalls : ∀ s, (t s).calls = s.calls)
    (hlog : ∀ s, (t s).log = s.log) (hvalue : ∀ s, g s.redacted = g s)
    (hblind : ∀ s, t s.redacted = (t s).redacted) : Silent x where
  calls env s := by rw [hx, hcalls]
  log env s := by rw [hx, hlog]
  blind env s := by rw [hx, hx, hvalue, hblind]
  settings _ := by
    funext s
    rw [hx, hx]

theorem drawSequence : Silent (drawSequence : Action ε Nat) :=
  .write (fun _ _ => rfl) (fun _ => rfl) (fun _ => rfl) (fun _ => rfl) fun _ => rfl

theorem draftMovement (m : CashMovement) : Silent (draftMovement m : Action ε Unit) :=
  .write (fun _ _ => rfl) (fun _ => rfl) (fun _ => rfl) (fun _ => rfl) fun _ => rfl

end Silent

-- ---------------------------------------------------------------------------
-- Discreet actions
-- ---------------------------------------------------------------------------

/-- Run from this session, the action logs the calls that fail (`Reports`), and its answer and
redacted session are the same where the same calls fail by other errors. -/
structure Discreet (x : Action DeskError α) (env : Environment) (s : Session) : Prop where
  reports : Session.Reports env s (x env s).2
  alike : ∀ env' s', env.FailsLike env' → s.RedactedAlike s' →
    EndAlike Session.RedactedAlike True Eq (x env s) (x env' s')

theorem Silent.alike {x : Action ε α} (hx : Silent x) (he : env.FailsLike env')
    (hs : s.RedactedAlike s') : EndAlike Session.RedactedAlike True Eq (x env s) (x env' s') := by
  have hrun := hx.blind env s'
  rw [hs, hx.blind env s] at hrun
  rw [hx.settings he]
  exact .of_answer (congrArg Prod.fst hrun).symm (congrArg Prod.snd hrun).symm

theorem Silent.discreet {x : Action DeskError α} (hx : Silent x) : Discreet x env s :=
  ⟨.silent (hx.calls env s) (hx.log env s), fun _ _ he hs => hx.alike he hs⟩

namespace Discreet

variable {x : Action DeskError α} {f : α → Action DeskError β} {a : α} {e : DeskError}
  {t : Session}

theorem bind (hx : Discreet x env s)
    (hf : ∀ a t, x env s = (.ok a, t) → Discreet (f a) env t) : Discreet (x >>= f) env s := by
  refine ⟨?_, fun env' s' he hs => (hx.alike env' s' he hs).bind ?_⟩
  · have hreports := hx.reports
    rcases h : x env s with ⟨e | a, t⟩
    · rw [h] at hreports
      rw [run_bind_error h]
      exact hreports
    · rw [h] at hreports
      rw [run_bind_value h]
      exact hreports.trans (hf a t h).reports
  · rintro a _ t t' hrun rfl ht
    exact (hf a t hrun).alike env' t' he ht

theorem pure (a : α) : Discreet (Pure.pure a) env s := (Silent.pure a).discreet

theorem fail (e : DeskError) : Discreet (fail e : Action DeskError α) env s :=
  (Silent.fail e).discreet

theorem ofExcept (o : Except DeskError α) : Discreet (ofExcept o) env s :=
  (Silent.ofExcept o).discreet

theorem orFail (e : DeskError) (o : Option α) : Discreet (orFail e o) env s :=
  (Silent.orFail e o).discreet

theorem note {level : LogLevel} {source : LogSource} {text : String} (h : source ≠ .store) :
    Discreet (note level source text) env s := by
  refine ⟨⟨[], [⟨level, source, text⟩], (List.append_nil _).symm, rfl, ?_⟩,
    fun env' s' _ hs => .of_ok rfl rfl rfl ?_⟩
  · simp [h, Environment.reports]
  · exact Session.redacted_logged hs rfl

theorem settings {f : Environment → Action DeskError β} (hf : Discreet (f env) env s)
    (hsame : ∀ env', env.FailsLike env' → f env' = f env) :
    Discreet (environment >>= f) env s := by
  refine ⟨hf.reports, fun env' s' he hs => ?_⟩
  show EndAlike Session.RedactedAlike True Eq (f env env s) (f env' env' s')
  rw [hsame env' he]
  exact hf.alike env' s' he hs

theorem onError {handler : DeskError → Action DeskError Unit} (hx : Discreet x env s)
    (hh : ∀ e t, Discreet (handler e) env t) : Discreet (onError x handler) env s := by
  refine ⟨?_, fun env' s' he hs => (hx.alike env' s' he hs).onError fun _ e t t' ht =>
    ((hh e t).alike env' t' he ht).session trivial⟩
  have hreports := hx.reports
  rcases h : x env s with ⟨e | a, t⟩
  · have hrun : Action.onError x handler env s = _ := run_onError_error h
    rw [h] at hreports
    rw [hrun]
    exact hreports.trans (hh e t).reports
  · have hrun : Action.onError x handler env s = _ := run_onError_value h
    rw [h] at hreports
    rw [hrun]
    exact hreports

section

variable {call : StoreCall} {x : Action StoreError α} {a : α}

theorem call_failed {cause : StoreError} (h : env.faults call (s.calls.count call) = some cause) :
    concealing call.resource (do Store.reach call; x) env s =
      (.error (.dataIntegrity call.resource),
        { s with calls := s.calls ++ [call], log := s.log ++ [call.report cause] }) := by
  have hreach : Store.reach call env s = (.error cause, { s with calls := s.calls ++ [call] }) := by
    simp only [Store.reach, h]
  have hrun : (do Store.reach call; x : Action StoreError α) env s = _ := run_bind_error hreach
  rw [concealing, hrun]
  rfl

theorem call_passed (h : env.faults call (s.calls.count call) = none)
    (hx : x env { s with calls := s.calls ++ [call] } = (.ok a, t)) :
    concealing call.resource (do Store.reach call; x) env s = (.ok a, t) := by
  have hreach : Store.reach call env s = (.ok (), { s with calls := s.calls ++ [call] }) := by
    simp only [Store.reach, h]
  have hrun : (do Store.reach call; x : Action StoreError α) env s = _ :=
    (run_bind_value hreach).trans hx
  rw [concealing, hrun]

/-- A call fails where the environment fails it and nowhere else, if the book takes what
it is about. -/
theorem calling (call : StoreCall) {resource : Resource} (hresource : call.resource = resource)
    (hx : Silent x) (hsure : ∀ s', s.Agrees s' → Sure x env s') :
    Discreet (concealing resource (do Store.reach call; x)) env s := by
  subst hresource
  have hfaults {env' : Environment} {s' : Session} (he : env.FailsLike env')
      (hs : s'.redacted = s.redacted) : (env'.faults call (s'.calls.count call)).isSome =
        (env.faults call (s.calls.count call)).isSome := by
    rw [Session.redacted_calls hs]
    exact he.faults ..
  cases hfault : env.faults call (s.calls.count call) with
  | some cause =>
    rw [hfault] at hfaults
    refine ⟨?_, fun env' s' he hs => ?_⟩
    · rw [call_failed hfault]
      exact ⟨[call], [call.report cause], rfl, rfl, by
        simp [Environment.reports, hfault, StoreCall.report]⟩
    · obtain ⟨cause', hfault'⟩ := Option.isSome_iff_exists.mp (hfaults he hs)
      -- the two lines differ, but not when redacted
      exact .of_error (call_failed hfault) fun _ => ⟨_, call_failed hfault',
        Session.redacted_logged (Session.redacted_called hs call)
          (call.report_redacted cause cause')⟩
  | none =>
    rw [hfault] at hfaults
    have hagrees : s.Agrees { s with calls := s.calls ++ [call] } := ⟨rfl, rfl, rfl, rfl, rfl⟩
    obtain ⟨a, t, hrun⟩ : ∃ a t, x env { s with calls := s.calls ++ [call] } = (.ok a, t) := by
      have hsure := hsure _ hagrees
      rcases hrun : x env { s with calls := s.calls ++ [call] } with ⟨e | a, t⟩
      · exact (Triple.error hsure hrun).elim
      · exact ⟨a, t, rfl⟩
    refine ⟨?_, fun env' s' he hs => ?_⟩
    · rw [call_passed hfault hrun]
      have hcalls := hx.calls env { s with calls := s.calls ++ [call] }
      have hlog := hx.log env { s with calls := s.calls ++ [call] }
      rw [hrun] at hcalls hlog
      exact ⟨[call], [], hcalls, hlog.trans (List.append_nil _).symm, by
        simp [Environment.reports, hfault]⟩
    · have hfault' : env'.faults call (s'.calls.count call) = none := by simpa using hfaults he hs
      obtain ⟨_, t', hrun', rfl, ht⟩ := (hx.alike he (Session.redacted_called hs call)).ok hrun
      exact .of_ok (call_passed hfault hrun) (call_passed hfault' hrun') rfl ht

end

end Discreet

-- ---------------------------------------------------------------------------
-- The calls
-- ---------------------------------------------------------------------------

namespace Store

theorem findRateAsOf_discreet (currency : CurrencyCode) (type : RateType) (date : Date) :
    Discreet (concealing .exchangeRate (findRateAsOf currency type date)) env s :=
  .calling .findRateAsOf rfl (.read (g := fun _ b => b.findRateAsOf currency type date)
    fun _ _ => rfl) fun _ _ => trivial

theorem findRate_discreet (id : RateId) :
    Discreet (concealing .exchangeRate (findRate id)) env s :=
  .calling .findRate rfl (.read (g := fun _ b => b.findRate id) fun _ _ => rfl) fun _ _ => trivial

theorem listRates_discreet : Discreet (concealing .exchangeRate listRates) env s :=
  .calling .listRates rfl (.read (g := fun _ b => b.listRates) fun _ _ => rfl) fun _ _ => trivial

theorem findCurrency_discreet (code : CurrencyCode) :
    Discreet (concealing .organisationCurrency (findCurrency code)) env s :=
  .calling .findCurrency rfl (.read (g := fun registry b =>
    (registry.find? (·.code = code)).or (b.findCurrency code)) fun _ _ => rfl) fun _ _ => trivial

theorem homeCurrencies_discreet :
    Discreet (concealing .organisationCurrency homeCurrencies) env s :=
  .calling .homeCurrencies rfl (.read (g := fun registry b =>
    b.homeCurrencies ++ registry.filter (·.isHome)) fun _ _ => rfl) fun _ _ => trivial

theorem findCashier_discreet (staff : StaffId) :
    Discreet (concealing .cashier (findCashier staff)) env s :=
  .calling .findCashier rfl (.read (g := fun _ b => b.findCashier staff) fun _ _ => rfl)
    fun _ _ => trivial

theorem findAccount_discreet (activity : Activity) (currency : CurrencyCode) :
    Discreet (concealing .activityAccount (findAccount activity currency)) env s :=
  .calling .findAccount rfl (.read (g := fun _ b => b.findAccount activity currency) fun _ _ => rfl)
    fun _ _ => trivial

theorem findExchange_discreet (id : ExchangeId) :
    Discreet (concealing .forexExchange (findExchange id)) env s :=
  .calling .findExchange rfl (.read (g := fun _ b => b.findExchange id) fun _ _ => rfl)
    fun _ _ => trivial

theorem listExchanges_discreet : Discreet (concealing .forexExchange listExchanges) env s :=
  .calling .listExchanges rfl (.read (g := fun _ b => b.listExchanges) fun _ _ => rfl)
    fun _ _ => trivial

theorem insertRate_discreet (rate : NewRate) :
    Discreet (concealing .exchangeRate (insertRate rate)) env s :=
  .calling .insertRate rfl (.write (fun _ _ => rfl) (fun _ => rfl) (fun _ => rfl) (fun _ => rfl)
    fun _ => rfl) fun _ _ => trivial

theorem deleteExchange_discreet (id : ExchangeId) :
    Discreet (concealing .forexExchange (deleteExchange id)) env s :=
  .calling .deleteExchange rfl (.write (fun _ _ => rfl) (fun _ => rfl) (fun _ => rfl)
    (fun _ => rfl) fun _ => rfl) fun _ _ => trivial

theorem begin_discreet : Discreet (concealing .forexExchange begin) env s :=
  .calling .begin rfl (.write (fun _ _ => rfl) (fun _ => rfl) (fun _ => rfl) (fun _ => rfl)
    fun _ => rfl) fun _ _ => trivial

theorem insertExchange_discreet (exchange : NewExchange) :
    Discreet (concealing .forexExchange (insertExchange exchange)) env s :=
  .calling .insertExchange rfl (.write (fun _ _ => rfl) (fun _ => rfl) (fun _ => rfl)
    (fun _ => rfl) fun _ => rfl) fun _ _ => trivial

theorem recordTransaction_discreet (transaction : CashTransaction) :
    Discreet (concealing .cashierTransaction (recordTransaction transaction)) env s :=
  .calling .recordTransaction rfl (.write (fun _ _ => rfl) (fun _ => rfl) (fun _ => rfl)
    (fun _ => rfl) fun _ => rfl) fun _ _ => trivial

theorem postEntry_discreet (entry : JournalEntry) :
    Discreet (concealing .journalEntry (postEntry entry)) env s :=
  .calling .postEntry rfl (.write (fun _ _ => rfl) (fun _ => rfl) (fun _ => rfl) (fun _ => rfl)
    fun _ => rfl) fun _ _ => trivial

section

variable {b : Book} {g : Book → Except StoreError Book}

theorem replace_run (g : Book → Except StoreError Book) (env : Environment) (s : Session) :
    (do setBook (← ofExcept (g (← book))) : Action StoreError Unit) env s =
      match g s.book with
      | .ok b => (.ok (), { s with book := b })
      | .error e => (.error e, s) := by
  cases h : g s.book with
  | ok b => exact run_bind_value (x := ofExcept (g s.book)) (by rw [h]; rfl)
  | error e => exact run_bind_error (x := ofExcept (g s.book)) (by rw [h]; rfl)

theorem replace_discreet {call : StoreCall} {resource : Resource}
    (hresource : call.resource = resource) (h : g s.book = .ok b) :
    Discreet (concealing resource (do Store.reach call; setBook (← ofExcept (g (← book)))))
      env s := by
  refine .calling call hresource ⟨fun env s => ?_, fun env s => ?_, fun env s => ?_, fun _ => ?_⟩
    fun s' hs => ?_
  · rw [replace_run]
    cases g s.book <;> rfl
  · rw [replace_run]
    cases g s.book <;> rfl
  · rw [replace_run, replace_run]
    show (match g s.book with | .ok b => _ | .error e => _) = _
    cases g s.book <;> rfl
  · funext s
    rw [replace_run, replace_run]
  · rw [Sure, Triple, replace_run, hs.book, h]
    trivial

end

theorem replaceRate_discreet {rate r : Rate} (h : s.book.findRate rate.id = some r) :
    Discreet (concealing .exchangeRate (replaceRate rate)) env s :=
  replace_discreet rfl (Book.replaceRate_found h)

theorem replaceExchange_discreet {exchange e : Exchange}
    (h : s.book.findExchange exchange.id = some e) :
    Discreet (concealing .forexExchange (replaceExchange exchange)) env s :=
  replace_discreet rfl (Book.replaceExchange_found h)

theorem commit_discreet {b : Book} (h : s.book.commit s.staged = .ok b) :
    Discreet (concealing .forexExchange commit) env s := by
  refine .calling .commit rfl ⟨fun env s => ?_, fun env s => ?_, fun env s => ?_, fun _ => rfl⟩
    fun s' hs => ?_
  · cases s.book.commit s.staged <;> rfl
  · cases s.book.commit s.staged <;> rfl
  · have hredacted : s.redacted.book.commit s.redacted.staged = s.book.commit s.staged := rfl
    rw [hredacted]
    cases s.book.commit s.staged <;> rfl
  · simp only [Sure, Triple, hs.book, hs.staged, h]

end Store
end ExchangeDesk
