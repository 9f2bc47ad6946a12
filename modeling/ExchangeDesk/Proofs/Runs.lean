import ExchangeDesk.Proofs.Execute
import ExchangeDesk.Proofs.Records

/-!
# Runs

A run performs one operation after the other, each in an environment of its own
and whether or not the ones before it succeeded. `Effect` lists all that one
operation can do to the book; what every effect keeps is kept by every run.
-/

namespace ExchangeDesk

open ExchangeDesk.Action

variable {env : Environment} {s s' : Session} {b b' : Book}

-- ---------------------------------------------------------------------------
-- One operation
-- ---------------------------------------------------------------------------

/-- What a desk is asked to do that may change its book. -/
inductive Operation where
  | execute (request : ExchangeRequest)
  | updateExchange (id : ExchangeId) (changes : ExchangeChanges)
  | deleteExchange (id : ExchangeId)
  | createRate (rate : NewRate)
  | updateRate (id : RateId) (changes : RateChanges)
  deriving DecidableEq, Repr

def Operation.perform : Operation → Action DeskError Unit
  | .execute request => do let _ ← Desk.execute request
  | .updateExchange id changes => do let _ ← Desk.updateExchange id changes
  | .deleteExchange id => Desk.deleteExchange id
  | .createRate rate => do let _ ← Desk.createRate rate
  | .updateRate id changes => do let _ ← Desk.updateRate id changes

def Operation.after (op : Operation) (env : Environment) (s : Session) : Session :=
  (op.perform env s).2

/-- Numbers of exchanges may have been drawn from the book. -/
def Book.Draws (b b' : Book) : Prop :=
  ∃ n, b.nextExchange ≤ n ∧ b' = { b with nextExchange := n }

theorem Book.Draws.refl (b : Book) : b.Draws b := ⟨_, Nat.le_refl _, rfl⟩

/-- What an operation can do: leave the records alone, add the first legs of an
accepted exchange, correct or delete an exchange record, or create or change a
rate. -/
inductive Effect (env : Environment) (s s' : Session) : Prop
  | spared (h : s.Spares s')
  | exchanged {request : ExchangeRequest} {source target : Currency} {way : Route}
      {taken rest : List PlannedLeg} {legs : List ExecutedLeg} {t : Session}
      (accepted : Accepted env s.book request source target way (taken ++ rest))
      (committed : Committed request taken legs s t) (drawn : t.book.Draws s'.book)
      (sequence : t.sequence ≤ s'.sequence)
  | corrected {id : ExchangeId} {changes : ExchangeChanges} {current next : Exchange}
      {applied : List ExchangeChange}
      (correction : Corrected env s.book id changes current next applied)
      (book : s'.book = s.book.putExchange next) (sequence : s'.sequence = s.sequence)
  | deleted {id : ExchangeId} (book : s'.book = (s.book.deleteExchange id).2)
      (sequence : s'.sequence = s.sequence)
  | created {rate valid : NewRate} {currency : Currency} (validated : rate.validated = .ok valid)
      (known : knownCurrency env s.book valid.currency = some currency)
      (book : s'.book = (s.book.insertRate valid).2) (sequence : s'.sequence = s.sequence)
  | revised {id : RateId} {changes : RateChanges} {current next : Rate}
      {applied : List RateChange} (revision : Revised env s.book id changes current next applied)
      (book : s'.book = s.book.putRate next) (sequence : s'.sequence = s.sequence)

theorem Effect.of_agrees (h : s.Agrees s') : Effect env s s' := .spared h.spares

theorem Effect.of_committed {request : ExchangeRequest} {source target : Currency} {way : Route}
    {plans : List PlannedLeg} {legs : List ExecutedLeg}
    (haccepted : Accepted env s.book request source target way plans)
    (h : Committed request plans legs s s') : Effect env s s' := by
  rw [← List.append_nil plans] at haccepted
  exact .exchanged haccepted h (.refl _) (Nat.le_refl _)

theorem Effect.of_interrupted {request : ExchangeRequest} {e : DeskError}
    (h : Desk.Interrupted env request e s s') : Effect env s s' := by
  obtain ⟨-, source, target, way, plans, haccepted, rfl, hcommitted, hspares, rfl⟩ := h
  refine .exchanged haccepted hcommitted ?_ ?_
  · rw [Session.alarm_book]
    exact hspares.book
  · rw [Session.alarm_sequence]
    exact hspares.sequence

namespace Operation

theorem discard_effect {α : Type} {x : Action DeskError α}
    (h : Triple x env s (fun _ => Effect env s) (fun _ => Effect env s)) :
    Triple (do let _ ← x) env s (fun _ => Effect env s) (fun _ => Effect env s) :=
  Triple.bind h fun _ _ hs => Triple.pure hs

theorem perform_effect (op : Operation) :
    Triple op.perform env s (fun _ => Effect env s) (fun _ => Effect env s) := by
  cases op with
  | execute request =>
    refine discard_effect (Triple.mono (Desk.execute_spec request) ?_ ?_)
    · rintro legs s' ⟨source, target, way, plans, haccepted, hcommitted⟩
      exact .of_committed haccepted hcommitted
    · rintro e s' (hspares | hinterrupted)
      · exact .spared hspares
      · exact .of_interrupted hinterrupted
  | updateExchange id changes =>
    refine discard_effect (Triple.mono (Desk.updateExchange_spec id changes) ?_
      fun _ _ h => .of_agrees h)
    rintro applied s' ⟨current, next, hcorrection, h⟩
    split at h
    · exact .of_agrees h
    · exact .corrected hcorrection h.book h.sequence
  | deleteExchange id =>
    refine Triple.mono (Desk.deleteExchange_spec id) ?_ fun _ _ h => .of_agrees h
    rintro _ s' ⟨-, h⟩
    exact .deleted h.book h.sequence
  | createRate rate =>
    refine discard_effect (Triple.mono (Desk.createRate_spec rate) ?_ fun _ _ h => .of_agrees h)
    rintro stored s' ⟨valid, currency, hvalid, hknown, -, h⟩
    exact .created hvalid hknown h.book h.sequence
  | updateRate id changes =>
    refine discard_effect (Triple.mono (Desk.updateRate_spec id changes) ?_
      fun _ _ h => .of_agrees h)
    rintro ⟨next, applied⟩ s' ⟨current, hrevision, h⟩
    split at h
    · exact .of_agrees h
    · exact .revised hrevision h.book h.sequence

theorem after_effect (op : Operation) (env : Environment) (s : Session) :
    Effect env s (op.after env s) :=
  (perform_effect op).final

end Operation

/-- Without a committed leg the ledger stays as it is, and the exchanges are those
from before, some of them corrected. -/
structure Quiet (env : Environment) (b b' : Book) : Prop where
  exchanges : ∀ e ∈ b'.exchanges, e ∈ b.exchanges ∨
    ∃ id changes current applied, Corrected env b id changes current e applied
  transactions : b'.transactions = b.transactions
  journal : b'.journal = b.journal

theorem Quiet.of_eq (he : b'.exchanges = b.exchanges) (ht : b'.transactions = b.transactions)
    (hj : b'.journal = b.journal) : Quiet env b b' :=
  ⟨fun _ h => .inl (he ▸ h), ht, hj⟩

theorem Effect.quiet_or_exchanged (h : Effect env s s') : Quiet env s.book s'.book ∨
    ∃ request source target way taken rest legs t,
      Accepted env s.book request source target way (taken ++ rest) ∧
      Committed request taken legs s t ∧ t.book.Draws s'.book ∧ t.sequence ≤ s'.sequence := by
  cases h with
  | spared h => exact .inl (.of_eq (by rw [h.records]) (by rw [h.records]) (by rw [h.records]))
  | exchanged haccepted hcommitted hdrawn hsequence =>
    exact .inr ⟨_, _, _, _, _, _, _, _, haccepted, hcommitted, hdrawn, hsequence⟩
  | corrected hcorrection hb =>
    rw [hb]
    refine .inl ⟨fun e he => ?_, rfl, rfl⟩
    obtain ⟨e₀, he₀, rfl⟩ := List.mem_map.mp he
    split
    · exact .inr ⟨_, _, _, _, hcorrection⟩
    · exact .inl he₀
  | deleted hb =>
    rw [hb]
    exact .inl ⟨fun e he => .inl (List.mem_filter.mp he).1, rfl, rfl⟩
  | created _ _ hb =>
    rw [hb]
    exact .inl (.of_eq rfl rfl rfl)
  | revised _ hb =>
    rw [hb]
    exact .inl (.of_eq rfl rfl rfl)

theorem Effect.sequence_le (h : Effect env s s') : s.sequence ≤ s'.sequence := by
  cases h with
  | spared h => exact h.sequence
  | exchanged _ hcommitted _ hsequence =>
    rw [hcommitted.sequence] at hsequence
    exact Nat.le_trans (Nat.le_add_right _ _) hsequence
  | corrected _ _ hsequence => exact Nat.le_of_eq hsequence.symm
  | deleted _ hsequence => exact Nat.le_of_eq hsequence.symm
  | created _ _ _ hsequence => exact Nat.le_of_eq hsequence.symm
  | revised _ _ hsequence => exact Nat.le_of_eq hsequence.symm

-- ---------------------------------------------------------------------------
-- Many operations
-- ---------------------------------------------------------------------------

def run : List (Environment × Operation) → Session → Session
  | [], s => s
  | (env, op) :: rest, s => run rest (op.after env s)

theorem run_append (tasks tasks' : List (Environment × Operation)) (s : Session) :
    run (tasks ++ tasks') s = run tasks' (run tasks s) := by
  induction tasks generalizing s with
  | nil => rfl
  | cons task rest ih => exact ih _

/-- What every effect in environments of one kind keeps, every run in such
environments keeps. -/
theorem run_invariant_where {C : Environment → Prop} {I : Session → Prop}
    (step : ∀ env s s', C env → I s → Effect env s s' → I s')
    (tasks : List (Environment × Operation)) (hC : ∀ task ∈ tasks, C task.1) (h : I s) :
    I (run tasks s) := by
  induction tasks generalizing s with
  | nil => exact h
  | cons task rest ih =>
    obtain ⟨env, op⟩ := task
    obtain ⟨hfirst, hrest⟩ := List.forall_mem_cons.mp hC
    exact ih hrest (step env s _ hfirst h (op.after_effect env s))

theorem run_invariant {I : Session → Prop}
    (step : ∀ env s s', I s → Effect env s s' → I s') (tasks : List (Environment × Operation))
    (h : I s) : I (run tasks s) :=
  run_invariant_where (C := fun _ => True) (fun env s s' _ => step env s s') tasks
    (fun _ _ => trivial) h

theorem Effect.setup (h : Effect env s s') : s.book.SameSetup s'.book := by
  cases h with
  | spared h =>
    obtain ⟨n, -, hb⟩ := h.book
    rw [hb]
    exact ⟨rfl, rfl, rfl⟩
  | exchanged _ hcommitted hdrawn =>
    obtain ⟨n, -, hb⟩ := hdrawn
    rw [hb, hcommitted.book]
    exact ⟨rfl, rfl, rfl⟩
  | corrected _ hb => rw [hb]; exact ⟨rfl, rfl, rfl⟩
  | deleted hb => rw [hb]; exact ⟨rfl, rfl, rfl⟩
  | created _ _ hb => rw [hb]; exact ⟨rfl, rfl, rfl⟩
  | revised _ hb => rw [hb]; exact ⟨rfl, rfl, rfl⟩

theorem run_setup (tasks : List (Environment × Operation)) (s : Session) :
    s.book.SameSetup (run tasks s).book :=
  run_invariant (I := fun s' => s.book.SameSetup s'.book) (fun _ _ _ h he => h.trans he.setup) tasks
    (.refl _)

end ExchangeDesk
