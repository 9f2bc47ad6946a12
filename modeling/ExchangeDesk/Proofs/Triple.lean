import ExchangeDesk.Desk.Session

/-!
# What an action leaves behind

`Triple x env s Q E`: run in `env` from the session `s`, the action `x` ends
with a value and a session as `Q` says, or with an error and a session as `E`
says. There is one rule for each way of building an action, so the outcome of a
long action is put together from those of its parts.
-/

namespace ExchangeDesk.Action

/-- Steps can be grouped as a proof needs them. -/
instance {ε : Type} : LawfulMonad (Action ε) := by
  refine LawfulMonad.mk' _ (fun x => ?_) (fun _ _ => rfl) (fun x f g => ?_)
  · funext env s
    show (match x env s with | (.ok a, s) => _ | (.error e, s) => _) = _
    split
    · next h => rw [h]; rfl
    · next h => rw [h]
  · funext env s
    show Action.bind (Action.bind x f) g env s = Action.bind x (fun a => Action.bind (f a) g) env s
    unfold Action.bind
    cases x env s with
    | mk answer s' =>
      cases answer with
      | ok => rfl
      | error => rfl

variable {ε α β : Type} {x : Action ε α} {f : α → Action ε β} {env : Environment}
  {s s' : Session} {a : α} {e : ε}
  {P Q : α → Session → Prop} {R : β → Session → Prop} {D E : ε → Session → Prop}

theorem run_bind_value (h : x env s = (.ok a, s')) : (x >>= f) env s = f a env s' := by
  show Action.bind x f env s = _
  rw [Action.bind, h]

theorem run_bind_error (h : x env s = (.error e, s')) : (x >>= f) env s = (.error e, s') := by
  show Action.bind x f env s = _
  rw [Action.bind, h]

theorem run_bind_ok {b : β} {t : Session} : (x >>= f) env s = (.ok b, t) ↔
    ∃ a s', x env s = (.ok a, s') ∧ f a env s' = (.ok b, t) := by
  rcases h : x env s with ⟨e | a, s'⟩
  · rw [run_bind_error h]
    simp
  · rw [run_bind_value h]
    refine ⟨fun hf => ⟨a, s', rfl, hf⟩, ?_⟩
    rintro ⟨_, _, ⟨⟩, hf⟩
    exact hf

theorem run_onError_value {handler : ε → Action ε Unit} (h : x env s = (.ok a, s')) :
    onError x handler env s = (.ok a, s') := by
  rw [onError, h]

theorem run_onError_error {handler : ε → Action ε Unit} (h : x env s = (.error e, s')) :
    onError x handler env s = (.error e, (handler e env s').2) := by
  rw [onError, h]

def Triple (x : Action ε α) (env : Environment) (s : Session) (Q : α → Session → Prop)
    (E : ε → Session → Prop) : Prop :=
  match x env s with
  | (.ok a, s') => Q a s'
  | (.error e, s') => E e s'

namespace Triple

theorem of_run (hx : x env s = (.ok a, s')) (hq : Q a s') : Triple x env s Q E := by
  rw [Triple, hx]
  exact hq

theorem of_run_error (hx : x env s = (.error e, s')) (he : E e s') : Triple x env s Q E := by
  rw [Triple, hx]
  exact he

theorem ok (h : Triple x env s Q E) (hx : x env s = (.ok a, s')) : Q a s' := by
  rw [Triple, hx] at h
  exact h

theorem error (h : Triple x env s Q E) (hx : x env s = (.error e, s')) : E e s' := by
  rw [Triple, hx] at h
  exact h

theorem final {I : Session → Prop} (h : Triple x env s (fun _ => I) (fun _ => I)) :
    I (x env s).2 := by
  rw [Triple] at h
  split at h
  · next hx => rw [hx]; exact h
  · next hx => rw [hx]; exact h

theorem answer_error (h : Triple x env s (fun _ _ => False) fun e' _ => e' = e) :
    (x env s).1 = .error e := by
  rw [Triple] at h
  split at h
  · cases h
  · next hx => rw [hx, h]

theorem mono (h : Triple x env s P D) (hq : ∀ a s', P a s' → Q a s')
    (he : ∀ e s', D e s' → E e s') : Triple x env s Q E := by
  rw [Triple] at h ⊢
  split at h
  · exact hq _ _ h
  · exact he _ _ h

theorem and (h : Triple x env s P D) (h' : Triple x env s Q E) :
    Triple x env s (fun a s' => P a s' ∧ Q a s') (fun e s' => D e s' ∧ E e s') := by
  rw [Triple] at h
  split at h
  · next hx => exact of_run hx ⟨h, h'.ok hx⟩
  · next hx => exact of_run_error hx ⟨h, h'.error hx⟩

-- ---------------------------------------------------------------------------
-- Sequencing
-- ---------------------------------------------------------------------------

theorem pure (h : Q a s) : Triple (Pure.pure a : Action ε α) env s Q E := h

theorem fail (h : E e s) : Triple (fail e : Action ε α) env s Q E := h

theorem bind (hx : Triple x env s P E) (hf : ∀ a s', P a s' → Triple (f a) env s' R E) :
    Triple (x >>= f) env s R E := by
  rw [Triple] at hx
  split at hx
  · next a s' hrun =>
    rw [Triple, run_bind_value hrun]
    exact hf a s' hx
  · next e s' hrun => exact of_run_error (run_bind_error hrun) hx

theorem seq (hx : Triple x env s P D) (he : ∀ e s', D e s' → E e s')
    (hf : ∀ a s', P a s' → Triple (f a) env s' R E) : Triple (x >>= f) env s R E := by
  have hx : Triple x env s P E := hx.mono (fun _ _ h => h) he
  exact hx.bind hf

theorem orFail {o : Option α} (hq : ∀ a, o = some a → Q a s) (he : o = none → E e s) :
    Triple (orFail e o) env s Q E := by
  cases o with
  | some a => exact hq a rfl
  | none => exact he rfl

theorem ofExcept {o : Except ε α} (hq : ∀ a, o = .ok a → Q a s) (he : ∀ e, o = .error e → E e s) :
    Triple (ofExcept o) env s Q E := by
  cases o with
  | ok a => exact hq a rfl
  | error e => exact he e rfl

-- ---------------------------------------------------------------------------
-- The session
-- ---------------------------------------------------------------------------

theorem environment {Q : Environment → Session → Prop} (h : Q env s) :
    Triple (environment : Action ε Environment) env s Q E := h

theorem book {Q : Book → Session → Prop} (h : Q s.book s) :
    Triple (book : Action ε Book) env s Q E := h

theorem modify {g : Session → Session} {Q : Unit → Session → Prop} (h : Q () (g s)) :
    Triple (modify g : Action ε Unit) env s Q E := h

theorem note {level : LogLevel} {source : LogSource} {text : String} {Q : Unit → Session → Prop}
    (h : Q () { s with log := s.log ++ [⟨level, source, text⟩] }) :
    Triple (note level source text : Action ε Unit) env s Q E := h

theorem readClock {Q : Instant → Session → Prop}
    (h : Q (env.clock s.readings) { s with readings := s.readings + 1 }) :
    Triple (readClock : Action ε Instant) env s Q E := h

-- ---------------------------------------------------------------------------
-- Errors on their way out
-- ---------------------------------------------------------------------------

theorem onError {handler : ε → Action ε Unit} (hx : Triple x env s Q D)
    (hd : ∀ e s', D e s' → E e (handler e env s').2) : Triple (onError x handler) env s Q E := by
  rw [Triple] at hx
  split at hx
  · next hrun => exact of_run (run_onError_value hrun) hx
  · next hrun => exact of_run_error (run_onError_error hrun) (hd _ _ hx)

theorem concealing {resource : Resource} {x : Action StoreError α} {D : StoreError → Session → Prop}
    {E : DeskError → Session → Prop} (hx : Triple x env s Q D)
    (hd : ∀ e s', D e s' → E (.dataIntegrity resource) { s' with
      log := s'.log ++ [⟨.error, .store, s!"{resource.name} store failure: {e.message}"⟩] }) :
    Triple (concealing resource x) env s Q E := by
  rw [Triple] at hx
  split at hx
  · next hrun => exact of_run (by rw [Action.concealing, hrun]) hx
  · next hrun => exact of_run_error (by rw [Action.concealing, hrun]) (hd _ _ hx)

end Triple
end ExchangeDesk.Action
