import ExchangeDesk.Proofs.Store

/-!
# Two runs side by side

A coupling says how two runs are compared: in which environments they take place, what their
sessions have in common, and whether the second one fails where the first one does. Two actions
are coupled if, begun with sessions in common, they end with sessions in common and with values
that belong together, or else with one error. There is one rule for each way of building an
action and one lemma for each lookup. What a call changes is another matter for each coupling.
-/

namespace ExchangeDesk

open ExchangeDesk.Action

-- ---------------------------------------------------------------------------
-- Ends of two runs
-- ---------------------------------------------------------------------------

section

variable {ε α β : Type} {R : Session → Session → Prop} {errors : Prop} {V : α → α → Prop}
  {W : β → β → Prop} {x x' : Action ε α} {f f' : α → Action ε β} {env env' : Environment}
  {s s' t t' : Session} {a a' : α} {e : ε} {r r' : Except ε α × Session}

/-- The second run has a value that belongs to the one of the first run. With an error of the
first run it has the same error, if `errors` asks for that. -/
def EndAlike (R : Session → Session → Prop) (errors : Prop) (V : α → α → Prop) :
    Except ε α × Session → Except ε α × Session → Prop
  | (.ok a, t), r' => ∃ a' t', r' = (.ok a', t') ∧ V a a' ∧ R t t'
  | (.error e, t), r' => errors → ∃ t', r' = (.error e, t') ∧ R t t'

def Same (P : α → Prop) (a a' : α) : Prop := a' = a ∧ P a

namespace EndAlike

theorem of_ok (hr : r = (.ok a, t)) (hr' : r' = (.ok a', t')) (hV : V a a') (ht : R t t') :
    EndAlike R errors V r r' := by
  rw [hr]
  exact ⟨a', t', hr', hV, ht⟩

theorem of_error (hr : r = (.error e, t)) (h : errors → ∃ t', r' = (.error e, t') ∧ R t t') :
    EndAlike R errors V r r' := by
  rw [hr]
  exact h

theorem of_answer (hanswer : r'.1 = r.1) (hR : R r.2 r'.2) : EndAlike R errors Eq r r' := by
  obtain ⟨answer, t⟩ := r
  obtain ⟨answer', t'⟩ := r'
  obtain rfl : answer' = answer := hanswer
  cases answer' with
  | ok a => exact ⟨a, t', rfl, rfl, hR⟩
  | error e => exact fun _ => ⟨t', rfl, hR⟩

theorem ok (h : EndAlike R errors V r r') (hr : r = (.ok a, t)) :
    ∃ a' t', r' = (.ok a', t') ∧ V a a' ∧ R t t' := by
  rw [hr] at h
  exact h

theorem error (h : EndAlike R errors V r r') (hr : r = (.error e, t)) (herrors : errors) :
    ∃ t', r' = (.error e, t') ∧ R t t' := by
  rw [hr] at h
  exact h herrors

theorem cases (h : EndAlike R errors V r r') (herrors : errors) :
    (∃ a a' t t', r = (.ok a, t) ∧ r' = (.ok a', t') ∧ V a a' ∧ R t t') ∨
      ∃ e t t', r = (.error e, t) ∧ r' = (.error e, t') ∧ R t t' := by
  obtain ⟨e | a, t⟩ := r
  · obtain ⟨t', hr', ht⟩ := h herrors
    exact .inr ⟨e, t, t', rfl, hr', ht⟩
  · obtain ⟨a', t', hr', hV, ht⟩ := h
    exact .inl ⟨a, a', t, t', rfl, hr', hV, ht⟩

theorem answer (h : EndAlike R errors Eq r r') (herrors : errors) : r'.1 = r.1 := by
  rcases h.cases herrors with ⟨a, _, t, t', rfl, rfl, rfl, -⟩ | ⟨e, t, t', rfl, rfl, -⟩ <;> rfl

theorem session (h : EndAlike R errors V r r') (herrors : errors) : R r.2 r'.2 := by
  rcases h.cases herrors with ⟨_, _, t, t', rfl, rfl, -, ht⟩ | ⟨_, t, t', rfl, rfl, ht⟩ <;> exact ht

theorem bind (hx : EndAlike R errors V (x env s) (x' env' s'))
    (hf : ∀ a a' t t', x env s = (.ok a, t) → V a a' → R t t' →
      EndAlike R errors W (f a env t) (f' a' env' t')) :
    EndAlike R errors W ((x >>= f) env s) ((x' >>= f') env' s') := by
  rcases hrun : x env s with ⟨e | a, t⟩
  · refine of_error (run_bind_error hrun) fun herrors => ?_
    obtain ⟨t', hrun', ht⟩ := hx.error hrun herrors
    exact ⟨t', run_bind_error hrun', ht⟩
  · obtain ⟨a', t', hrun', hV, ht⟩ := hx.ok hrun
    rw [run_bind_value hrun, run_bind_value hrun']
    exact hf a a' t t' hrun hV ht

/-- Of the handlers only the sessions count: the error of the action is returned. -/
theorem onError {handler handler' : ε → Action ε Unit}
    (hx : EndAlike R errors V (x env s) (x' env' s'))
    (hh : errors → ∀ e t t', R t t' → R (handler e env t).2 (handler' e env' t').2) :
    EndAlike R errors V (onError x handler env s) (onError x' handler' env' s') := by
  rcases hrun : x env s with ⟨e | a, t⟩
  · refine of_error (run_onError_error hrun) fun herrors => ?_
    obtain ⟨t', hrun', ht⟩ := hx.error hrun herrors
    exact ⟨_, run_onError_error hrun', hh herrors e t t' ht⟩
  · obtain ⟨a', t', hrun', hV, ht⟩ := hx.ok hrun
    exact of_ok (run_onError_value hrun) (run_onError_value hrun') hV ht

end EndAlike
end

-- ---------------------------------------------------------------------------
-- Couplings
-- ---------------------------------------------------------------------------

/-- Runs in two environments that fail the same calls. -/
structure Coupling where
  left : Environment
  right : Environment
  Related : Session → Session → Prop
  /-- Lines of the log that belong together. -/
  Lines : LogLine → LogLine → Prop
  /-- Whether the second run has to fail where the first one does. -/
  errors : Prop
  faults : right.faults = left.faults
  rateScale : right.rateScale = left.rateScale
  atomicity : right.atomicity = left.atomicity
  setup {s s' : Session} : Related s s' → s.book.SameSetup s'.book
  calls {s s' : Session} : Related s s' → s'.calls = s.calls
  called {s s' : Session} (call : StoreCall) : Related s s' →
    Related { s with calls := s.calls ++ [call] } { s' with calls := s'.calls ++ [call] }
  line (l : LogLine) : Lines l l
  logged {s s' : Session} {l l' : LogLine} : Related s s' → Lines l l' →
    Related { s with log := s.log ++ [l] } { s' with log := s'.log ++ [l'] }

/-- Begun with sessions that are related, the two actions end alike. -/
def Coupling.Couples {ε α : Type} (C : Coupling) (x x' : Action ε α) (V : α → α → Prop) : Prop :=
  ∀ s s', C.Related s s' → EndAlike C.Related C.errors V (x C.left s) (x' C.right s')

variable {C : Coupling}

namespace Coupling.Couples

variable {ε α β : Type} {x x' : Action ε α} {f f' : α → Action ε β} {a a' : α} {e : ε}
  {V : α → α → Prop} {W : β → β → Prop} {P : α → Prop}

theorem pure (h : V a a') : C.Couples (Pure.pure a : Action ε α) (Pure.pure a') V :=
  fun _ _ hs => .of_ok rfl rfl h hs

theorem fail : C.Couples (fail e : Action ε α) (fail e) V :=
  fun _ s' hs => .of_error rfl fun _ => ⟨s', rfl, hs⟩

theorem mono (hx : C.Couples x x' V) {V' : α → α → Prop} (hV : ∀ a a', V a a' → V' a a') :
    C.Couples x x' V' := by
  intro s s' hs
  rcases hrun : x C.left s with ⟨e | a, t⟩
  · exact .of_error rfl fun herrors => (hx s s' hs).error hrun herrors
  · obtain ⟨a', t', hrun', ha, ht⟩ := (hx s s' hs).ok hrun
    exact .of_ok rfl hrun' (hV a a' ha) ht

theorem bind (hx : C.Couples x x' V) (hf : ∀ a a', V a a' → C.Couples (f a) (f' a') W) :
    C.Couples (x >>= f) (x' >>= f') W :=
  fun s s' hs => (hx s s' hs).bind fun a a' t t' _ hV ht => hf a a' hV t t' ht

theorem same (hx : C.Couples x x' Eq) (hf : ∀ a, C.Couples (f a) (f' a) W) :
    C.Couples (x >>= f) (x' >>= f') W := by
  refine hx.bind ?_
  rintro a _ rfl
  exact hf a

theorem known (hx : C.Couples x x' (Same P)) (hf : ∀ a, P a → C.Couples (f a) (f' a) W) :
    C.Couples (x >>= f) (x' >>= f') W := by
  refine hx.bind ?_
  rintro a _ ⟨rfl, ha⟩
  exact hf _ ha

theorem ofExcept {o o' : Except ε α} (hok : ∀ a, o = .ok a → ∃ a', o' = .ok a' ∧ V a a')
    (herror : C.errors → ∀ e, o = .error e → o' = .error e) :
    C.Couples (ofExcept o) (ofExcept o') V := by
  intro s s' hs
  cases o with
  | ok a =>
    obtain ⟨a', rfl, hV⟩ := hok a rfl
    exact .of_ok rfl rfl hV hs
  | error e =>
    refine .of_error rfl fun herrors => ⟨s', ?_, hs⟩
    rw [herror herrors e rfl]
    rfl

theorem ofExcept_known {o : Except ε α} :
    C.Couples (Action.ofExcept o) (Action.ofExcept o) (Same (o = .ok ·)) :=
  ofExcept (fun a ha => ⟨a, ha, rfl, ha⟩) fun _ _ he => he

theorem ofExcept_same {o : Except ε α} :
    C.Couples (Action.ofExcept o) (Action.ofExcept o) Eq :=
  ofExcept (fun a ha => ⟨a, ha, rfl⟩) fun _ _ he => he

theorem orFail {o : Option α} : C.Couples (orFail e o) (orFail e o) (Same (o = some ·)) := by
  cases o with
  | some a => exact .pure ⟨rfl, rfl⟩
  | none => exact .fail

theorem of_total {g g' : Session → α} {u u' : Session → Session}
    (hx : ∀ s, x C.left s = (.ok (g s), u s)) (hx' : ∀ s, x' C.right s = (.ok (g' s), u' s))
    (h : ∀ s s', C.Related s s' → V (g s) (g' s') ∧ C.Related (u s) (u' s')) :
    C.Couples x x' V :=
  fun s s' hs => .of_ok (hx s) (hx' s') (h s s' hs).1 (h s s' hs).2

theorem environment : C.Couples (environment : Action ε Environment) Action.environment
    fun env env' => env = C.left ∧ env' = C.right :=
  of_total (fun _ => rfl) (fun _ => rfl) fun _ _ hs => ⟨⟨rfl, rfl⟩, hs⟩

theorem note {level level' : LogLevel} {source source' : LogSource} {text text' : String}
    (h : C.Lines ⟨level, source, text⟩ ⟨level', source', text'⟩) :
    C.Couples (note level source text : Action ε Unit) (note level' source' text') Eq :=
  of_total (fun _ => rfl) (fun _ => rfl) fun _ _ hs => ⟨rfl, C.logged hs h⟩

theorem onError {handler handler' : ε → Action ε Unit} (hx : C.Couples x x' V)
    (hh : C.errors → ∀ e, C.Couples (handler e) (handler' e) Eq) :
    C.Couples (onError x handler) (onError x' handler') V :=
  fun s s' hs => (hx s s' hs).onError fun herrors e t t' ht =>
    (hh herrors e t t' ht).session herrors

theorem concealing {resource : Resource} {x x' : Action StoreError α} (hx : C.Couples x x' V) :
    C.Couples (concealing resource x) (concealing resource x') V := by
  intro s s' hs
  rcases hrun : x C.left s with ⟨e | a, t⟩
  · refine .of_error (by rw [Action.concealing, hrun]) fun herrors => ?_
    obtain ⟨t', hrun', ht⟩ := (hx s s' hs).error hrun herrors
    exact ⟨_, by rw [Action.concealing, hrun'], C.logged ht (C.line _)⟩
  · obtain ⟨a', t', hrun', hV, ht⟩ := (hx s s' hs).ok hrun
    exact .of_ok (by rw [Action.concealing, hrun]) (by rw [Action.concealing, hrun']) hV ht

end Coupling.Couples

-- ---------------------------------------------------------------------------
-- Calls of the store
-- ---------------------------------------------------------------------------

namespace Store

theorem reach_couples (call : StoreCall) : C.Couples (reach call) (reach call) Eq := by
  intro s s' hs
  -- both calls are the same in number, so they fail or succeed together
  have hfault : C.right.faults call (s'.calls.count call) =
      C.left.faults call (s.calls.count call) := by rw [C.faults, C.calls hs]
  rw [reach, reach, hfault]
  cases C.left.faults call (s.calls.count call) with
  | some e => exact .of_error rfl fun _ => ⟨_, rfl, C.called call hs⟩
  | none => exact .of_ok rfl rfl rfl (C.called call hs)

theorem reach_then_couples {α : Type} {call : StoreCall} {x x' : Action StoreError α}
    {V : α → α → Prop} (hx : C.Couples x x' V) :
    C.Couples (do reach call; x) (do reach call; x') V :=
  (reach_couples call).same fun _ => hx

theorem findRateAsOf_couples {currency : CurrencyCode} {type : RateType} {date : Date}
    (h : ∀ s s', C.Related s s' →
      s'.book.findRateAsOf currency type date = s.book.findRateAsOf currency type date) :
    C.Couples (findRateAsOf currency type date) (findRateAsOf currency type date) Eq :=
  reach_then_couples <| .of_total (fun _ => rfl) (fun _ => rfl) fun s s' hs =>
    ⟨(h s s' hs).symm, hs⟩

theorem findCashier_couples (staff : StaffId) :
    C.Couples (findCashier staff) (findCashier staff) Eq := by
  refine reach_then_couples <| .of_total (fun _ => rfl) (fun _ => rfl) fun s s' hs => ⟨?_, hs⟩
  simp only [Book.findCashier, (C.setup hs).cashiers]

theorem findAccount_couples (activity : Activity) (currency : CurrencyCode) :
    C.Couples (findAccount activity currency) (findAccount activity currency) Eq := by
  refine reach_then_couples <| .of_total (fun _ => rfl) (fun _ => rfl) fun s s' hs => ⟨?_, hs⟩
  simp only [Book.findAccount, (C.setup hs).accounts]

theorem homeCurrencies_couples
    (h : C.right.registry.filter (·.isHome) = C.left.registry.filter (·.isHome)) :
    C.Couples homeCurrencies homeCurrencies Eq := by
  refine reach_then_couples <| .of_total (fun _ => rfl) (fun _ => rfl) fun s s' hs => ⟨?_, hs⟩
  simp only [Book.homeCurrencies, (C.setup hs).currencies, h]

theorem findCurrency_couples {code : CurrencyCode}
    (h : C.right.registry.find? (·.code = code) = C.left.registry.find? (·.code = code)) :
    C.Couples (findCurrency code) (findCurrency code) (Same fun found => ∃ s s', C.Related s s' ∧
      found = (C.left.registry.find? (·.code = code)).or (s.book.findCurrency code)) := by
  refine reach_then_couples <| .of_total (fun _ => rfl) (fun _ => rfl) fun s s' hs =>
    ⟨⟨?_, s, s', hs, rfl⟩, hs⟩
  simp only [Book.findCurrency, (C.setup hs).currencies, h]

end Store
end ExchangeDesk
