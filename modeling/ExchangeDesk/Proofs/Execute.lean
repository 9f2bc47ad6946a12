import ExchangeDesk.Proofs.Commit
import ExchangeDesk.Proofs.Planning

/-!
# What an exchange leaves behind

An exchange that succeeds has committed an accepted plan (`execute_spec`). One
that fails spares the book, except leg by leg, where the legs before the failed
one stand and an alarm names them (`BrokenOff`).
-/

namespace ExchangeDesk

open ExchangeDesk.Action

variable {env : Environment} {s s' : Session} {request : ExchangeRequest}
  {plans : List PlannedLeg} {legs : List ExecutedLeg}

-- ---------------------------------------------------------------------------
-- Leg by leg
-- ---------------------------------------------------------------------------

def Session.alarm (s : Session) (request : ExchangeRequest) (total : Nat) (e : DeskError)
    (done : List ExecutedLeg) : Session :=
  if done.isEmpty then s
  else { s with
    log := s.log ++
      [⟨.error, .engine, Desk.strandedText request (done.length + 1) total e done⟩] }

@[simp] theorem Session.alarm_book {total : Nat} {e : DeskError} {done : List ExecutedLeg} :
    (s.alarm request total e done).book = s.book := by
  unfold alarm
  split <;> rfl

@[simp] theorem Session.alarm_sequence {total : Nat} {e : DeskError} {done : List ExecutedLeg} :
    (s.alarm request total e done).sequence = s.sequence := by
  unfold alarm
  split <;> rfl

/-- Plans were committed up to one whose unit of work failed; `done` are the
legs from before. -/
inductive BrokenOff (request : ExchangeRequest) (total : Nat) (done : List ExecutedLeg)
    (plans : List PlannedLeg) (e : DeskError) (s s' : Session) : Prop
  | intro {taken rest : List PlannedLeg} {failed : PlannedLeg} {legs : List ExecutedLeg}
      {t u : Session} (split : plans = taken ++ failed :: rest)
      (committed : Committed request taken legs s t) (spared : t.Spares u)
      (reported : s' = u.alarm request total e (done ++ legs))

namespace Desk

theorem commitEach_triple (request : ExchangeRequest) (total : Nat) (done : List ExecutedLeg)
    (plans : List PlannedLeg) :
    Triple (commitEach request total done plans) env s
      (fun legs s' => ∃ new, legs = done ++ new ∧ Committed request plans new s s')
      (fun e s' => BrokenOff request total done plans e s s') := by
  induction plans generalizing s done with
  | nil => exact Triple.pure ⟨[], by simp, .nil request s⟩
  | cons p rest ih =>
    refine Triple.bind (Triple.onError (commitLegs_triple request [p])
      (E := fun e s' => BrokenOff request total done (p :: rest) e s s') ?_) ?_
    · intro e u hspares
      -- the handler is the alarm about the legs that stand
      refine ⟨(List.nil_append _).symm, .nil request s, hspares, ?_⟩
      rw [List.append_nil, Session.alarm]
      split <;> rfl
    · rintro legs s₁ h₁
      -- the legs done so far grow by this one, and the rest starts where it ended
      refine Triple.mono (ih (done ++ legs)) ?_ ?_
      · rintro _ s₂ ⟨new, rfl, h₂⟩
        exact ⟨legs ++ new, List.append_assoc .., h₁.append h₂⟩
      · rintro e s₂ ⟨rfl, hcommitted, hspares, hreported⟩
        rw [List.append_assoc] at hreported
        exact ⟨rfl, h₁.append hcommitted, hspares, hreported⟩

-- ---------------------------------------------------------------------------
-- The whole exchange
-- ---------------------------------------------------------------------------

/-- An exchange of which the first legs stand although it failed. -/
def Interrupted (env : Environment) (request : ExchangeRequest) (e : DeskError)
    (s s' : Session) : Prop :=
  env.atomicity = .perLeg ∧ ∃ source target way plans,
    Accepted env s.book request source target way plans ∧
    BrokenOff request plans.length [] plans e s s'

theorem execute_spec (request : ExchangeRequest) :
    Triple (execute request) env s
      (fun legs s' => ∃ source target way plans,
        Accepted env s.book request source target way plans ∧ Committed request plans legs s s')
      (fun e s' => s.Spares s' ∨ Interrupted env request e s s') := by
  refine execute_triple (fun _ _ h => .inl h.spares) ?_
  rintro source target way plans s₁ haccepted h₁
  cases hmode : env.atomicity with
  | allLegs =>
    refine settle_allLegs hmode (Triple.mono (commitLegs_triple request plans) ?_ ?_)
    · rintro legs s' h
      exact ⟨source, target, way, plans, haccepted, h.of_agrees h₁⟩
    · rintro e s' h
      exact .inl (h₁.spares.trans h)
  | perLeg =>
    refine settle_perLeg hmode
      (Triple.mono (commitEach_triple request plans.length [] plans) ?_ ?_)
    · rintro _ s' ⟨legs, rfl, h⟩
      exact ⟨source, target, way, plans, haccepted, h.of_agrees h₁⟩
    · rintro e s' ⟨hsplit, hcommitted, hspares, hreported⟩
      refine .inr ⟨hmode, source, target, way, plans, haccepted, ?_⟩
      exact ⟨hsplit, hcommitted.of_agrees h₁, hspares, hreported⟩

theorem execute_ne_nil {request : ExchangeRequest} {legs : List ExecutedLeg} {s' : Session}
    (h : execute request env s = (.ok legs, s')) : legs ≠ [] := by
  obtain ⟨_, _, _, _, haccepted, hcommitted⟩ := (execute_spec request).ok h
  have hwritten := hcommitted.written
  cases haccepted.planned with
  | toHome _ | fromHome _ | cross _ _ =>
    obtain ⟨leg, rest, -, rfl, -⟩ := hwritten.cons_inv
    exact List.cons_ne_nil leg rest

/-- With `allLegs` an exchange is all or nothing: whichever calls fail, an error leaves every record
as it was, and a success adds the records of the legs that it returns. -/
theorem execute_allLegs_atomic (request : ExchangeRequest) (env : Environment) (s : Session) :
    match execute request { env with atomicity := .allLegs } s with
    | (.error _, s') => s'.book.toRecords = s.book.toRecords
    | (.ok legs, s') =>
      s'.book.toRecords = (s.book.withLegs legs).toRecords ∧
        ∀ leg ∈ legs, s'.book.findExchange leg.exchange.id = some leg.exchange := by
  have h : Triple (execute request) { env with atomicity := .allLegs } s _ _ := execute_spec request
  split
  · next hrun =>
    rcases h.error hrun with hspares | ⟨hmode, -⟩
    · exact hspares.records
    · cases hmode
  · next hrun =>
    obtain ⟨_, _, _, _, -, hcommitted⟩ := h.ok hrun
    exact ⟨congrArg Book.toRecords hcommitted.book, hcommitted.stored⟩

end Desk
end ExchangeDesk
