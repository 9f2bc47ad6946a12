import Mathlib.Logic.Function.Basic
import ExchangeDesk.Proofs.CorrelationIds
import ExchangeDesk.Proofs.Meaning

/-!
# Desks with one sequence

The desks of a bureau have books of their own but draw the numbers of correlation
ids from one sequence. Each operation enters its movements under numbers that were
not given before (`Session.Enters`), at whatever desk. So no two movements ever
made in a bureau share an id, and the entries of a committed leg are found under its
two ids for good (`Bureau.work_identifies`).
-/

namespace ExchangeDesk

open ExchangeDesk.Action

variable {env : Environment} {s s' : Session} {b : Book} {request : ExchangeRequest}
  {legs : List ExecutedLeg} {ms : List CashMovement}

-- ---------------------------------------------------------------------------
-- What one operation enters
-- ---------------------------------------------------------------------------

/-- The movements of legs, in the order in which they are posted. -/
def movementsOf (legs : List ExecutedLeg) : List CashMovement :=
  legs.flatMap (·.postings.movements)

theorem Posted.bears {leg : Exchange} {cashier : Cashier} {instant : Instant}
    {direction : Direction} {sequence : Nat} {m : CashMovement}
    (h : Posted b leg cashier instant direction sequence m) : m.Bears sequence := by
  refine ⟨instant, leg.user.user, cashier.office, ?_, ?_⟩
  · rw [h.debit]
    rfl
  · rw [h.credit]
    rfl

theorem Written.numberedFrom {plans : List PlannedLeg} {number sequence : Nat}
    (h : Written b request number sequence plans legs) :
    NumberedFrom sequence (movementsOf legs) := by
  induction h with
  | nil => trivial
  | cons _ posted _ ih =>
    obtain ⟨cashier, -, hout, hin⟩ := posted
    exact ⟨hout.bears, hin.bears, ih⟩

theorem length_movementsOf (legs : List ExecutedLeg) :
    (movementsOf legs).length = 2 * legs.length := by
  simp [movementsOf, LegPostings.movements, Nat.mul_comm]

/-- The legs and what they are posted with are all that came into the book, and their movements bear
the next numbers of the sequence. -/
structure Session.Enters (s s' : Session) (legs : List ExecutedLeg) : Prop where
  exchanges : s.book.newExchanges s'.book = legs.map (·.exchange)
  posts : s.book.Posts s'.book legs
  numbered : NumberedFrom s.sequence (movementsOf legs)
  sequence : s.sequence + (movementsOf legs).length ≤ s'.sequence

theorem Session.Enters.entered (h : s.Enters s' legs) (hs : s.book.Entered s.sequence ms) :
    s'.book.Entered s'.sequence (ms ++ movementsOf legs) :=
  hs.append h.numbered h.sequence h.posts.journal

theorem Committed.enters {plans : List PlannedLeg} {t : Session}
    (h : Committed request plans legs s t) (hdrawn : t.book.Draws s'.book)
    (hsequence : t.sequence ≤ s'.sequence) : s.Enters s' legs := by
  refine ⟨h.newExchanges hdrawn, h.posts hdrawn, h.written.numberedFrom, ?_⟩
  rw [length_movementsOf, ← h.sequence]
  exact hsequence

theorem Effect.enters (h : Effect env s s') : ∃ legs, s.Enters s' legs := by
  rcases h.quiet_or_exchanged with hquiet |
    ⟨_, _, _, _, _, _, legs, _, -, hcommitted, hdrawn, hsequence⟩
  · exact ⟨[], hquiet.newExchanges, .of_ledger hquiet.transactions hquiet.journal h.setup, trivial,
      h.sequence_le⟩
  · exact ⟨legs, hcommitted.enters hdrawn hsequence⟩

theorem Desk.execute_enters (request : ExchangeRequest) :
    Triple (execute request) env s (fun legs s' => s.Enters s' legs)
      (fun _ s' => ∃ legs, s.Enters s' legs) := by
  refine Triple.mono (execute_spec request) ?_ ?_
  · rintro legs s' ⟨_, _, _, _, -, hcommitted⟩
    exact hcommitted.enters (.refl _) (Nat.le_refl _)
  · rintro e s' (hspares | hinterrupted)
    · exact (@Effect.spared env _ _ hspares).enters
    · exact (Effect.of_interrupted hinterrupted).enters

theorem Operation.execute_after (request : ExchangeRequest) (env : Environment) (s : Session) :
    ∃ legs, (∀ answered, (Desk.execute request env s).1 = .ok answered → legs = answered) ∧
      s.Enters ((Operation.execute request).after env s) legs := by
  have henters := @Desk.execute_enters env s request
  have hafter : (Operation.execute request).after env s =
      (Action.bind (Desk.execute request) (fun _ => Pure.pure ()) env s).2 := rfl
  rw [hafter, Action.bind]
  cases hrun : Desk.execute request env s with
  | mk answer s' =>
    cases answer with
    | ok legs => exact ⟨legs, fun answered h => Except.ok.inj h, henters.ok hrun⟩
    | error e =>
      obtain ⟨legs, h⟩ := henters.error hrun
      exact ⟨legs, by simp, h⟩

-- ---------------------------------------------------------------------------
-- The sequence at every step
-- ---------------------------------------------------------------------------

/-- The movements bear the numbers from one up to the next one, in order. -/
structure Consecutive (next : Nat) (ms : List CashMovement) : Prop where
  numbered : NumberedFrom 1 ms
  next_eq : next = 1 + ms.length

theorem Session.Step.consecutive (hstep : s.Step s')
    (h : Consecutive s.sequence s.drafts.movements) :
    Consecutive s'.sequence s'.drafts.movements := by
  cases hstep with
  | moved m bears =>
    obtain ⟨hnumbered, hnext⟩ := h
    rw [hnext] at bears
    exact ⟨NumberedFrom.append.mpr ⟨hnumbered, bears, trivial⟩, by simp [hnext, Nat.add_assoc]⟩
  | _ => exact { h with }

-- ---------------------------------------------------------------------------
-- Bureaus
-- ---------------------------------------------------------------------------

/-- Desks that share the sequence. -/
structure Bureau where
  desks : Nat → Session
  sequence : Nat := 1
  movements : List CashMovement := []

namespace Bureau

def opened (books : Nat → Book) : Bureau := { desks := fun i => { book := books i } }

def book (u : Bureau) (i : Nat) : Book := (u.desks i).book

def seat (u : Bureau) (i : Nat) : Session :=
  { u.desks i with sequence := u.sequence, drafts.movements := u.movements }

def after (u : Bureau) (task : Nat × Environment × Operation) : Bureau :=
  let s := task.2.2.after task.2.1 (u.seat task.1)
  { desks := Function.update u.desks task.1 s, sequence := s.sequence
    movements := s.drafts.movements }

def work (u : Bureau) (tasks : List (Nat × Environment × Operation)) : Bureau :=
  tasks.foldl after u

variable {u : Bureau} {i : Nat}

@[simp] theorem book_after_self (u : Bureau) (i : Nat) (env : Environment) (op : Operation) :
    (u.after (i, env, op)).book i = (op.after env (u.seat i)).book := by
  simp [book, after]

theorem book_after_ne {j : Nat} (hij : i ≠ j) (env : Environment) (op : Operation) :
    (u.after (j, env, op)).book i = u.book i := by
  simp [book, after, hij]

theorem consecutive_work (h : Consecutive u.sequence u.movements)
    (tasks : List (Nat × Environment × Operation)) :
    Consecutive (u.work tasks).sequence (u.work tasks).movements := by
  induction tasks generalizing u with
  | nil => exact h
  | cons task rest ih =>
    obtain ⟨i, env, op⟩ := task
    refine ih ?_
    exact (op.leads env (u.seat i)).invariant
      (I := fun s => Consecutive s.sequence s.drafts.movements)
      (fun _ _ h hstep => hstep.consecutive h) h

theorem entered_after (h : (u.book i).Entered u.sequence ms)
    (task : Nat × Environment × Operation) :
    ∃ ms', ((u.after task).book i).Entered (u.after task).sequence (ms ++ ms') := by
  obtain ⟨j, env, op⟩ := task
  have heffect := op.after_effect env (u.seat j)
  by_cases hij : i = j
  · subst hij
    obtain ⟨legs, henters⟩ := heffect.enters
    refine ⟨movementsOf legs, ?_⟩
    rw [book_after_self]
    exact henters.entered h
  · refine ⟨[], ?_⟩
    rw [book_after_ne hij, List.append_nil]
    exact h.mono heffect.sequence_le

theorem entered_work (h : (u.book i).Entered u.sequence ms)
    (tasks : List (Nat × Environment × Operation)) :
    ∃ ms', ((u.work tasks).book i).Entered (u.work tasks).sequence (ms ++ ms') := by
  induction tasks generalizing u ms with
  | nil => exact ⟨[], by rwa [List.append_nil]⟩
  | cons task rest ih =>
    obtain ⟨ms', h'⟩ := entered_after h task
    obtain ⟨ms'', h''⟩ := ih h'
    exact ⟨ms' ++ ms'', by rwa [List.append_assoc] at h''⟩

/-- All movements drafted at desks that share the sequence, committed or not, bear its numbers in
order (`Consecutive`), so their ids are different. Once an exchange has committed legs, the book of
the desk holds, then and after any later work, the two entries of each of their movements under its
id and no others (`Tells`). -/
theorem work_identifies {books : Nat → Book} (hbooks : ∀ i, (books i).journal = [])
    {tasks : List (Nat × Environment × Operation)} {u : Bureau}
    (hu : u = (opened books).work tasks) :
    (∀ leg cashier direction amount currency instant env s,
      Triple (Desk.movement leg cashier direction amount currency instant) env s
        (fun m s' => s'.drafts = { s.drafts with movements := s.drafts.movements ++ [m] })
        fun _ s' => s'.drafts = s.drafts) ∧
    ((u.movements.map (·.correlation)).Nodup ∧ Consecutive u.sequence u.movements) ∧
    ∀ i env request, ∃ legs : List ExecutedLeg,
      (∀ answered, (Desk.execute request env (u.seat i)).1 = .ok answered → legs = answered) ∧
      (u.book i).newExchanges ((u.after (i, env, .execute request)).book i) =
        legs.map (·.exchange) ∧
      (u.book i).Posts ((u.after (i, env, .execute request)).book i) legs ∧
      ∀ later, ∀ leg ∈ legs,
        (((u.after (i, env, .execute request)).work later).book i).Tells leg.postings.outward ∧
        (((u.after (i, env, .execute request)).work later).book i).Tells leg.postings.inward := by
  have hconsecutive : Consecutive u.sequence u.movements :=
    hu ▸ consecutive_work (u := opened books) ⟨trivial, rfl⟩ tasks
  refine ⟨Desk.movement_drafts, ⟨hconsecutive.numbered.distinct, hconsecutive⟩, ?_⟩
  intro i env request
  have hopened : ((opened books).book i).Entered (opened books).sequence [] :=
    ⟨hbooks i, List.nodup_nil, by simp⟩
  obtain ⟨ms, hms⟩ := entered_work hopened tasks
  rw [← hu] at hms
  obtain ⟨legs, hanswer, henters⟩ := Operation.execute_after request env (u.seat i)
  rw [book_after_self]
  refine ⟨legs, hanswer, henters.exchanges, henters.posts, fun later leg hleg => ?_⟩
  have hentered : ((u.after (i, env, .execute request)).book i).Entered
      (u.after (i, env, .execute request)).sequence ([] ++ ms ++ movementsOf legs) := by
    rw [book_after_self]
    exact henters.entered hms
  obtain ⟨ms', hlater⟩ := entered_work hentered later
  have hmem (m : CashMovement) (hm : m ∈ leg.postings.movements) :
      m ∈ [] ++ ms ++ movementsOf legs ++ ms' :=
    List.mem_append_left _ (List.mem_append_right _ (List.mem_flatMap.mpr ⟨leg, hleg, hm⟩))
  exact ⟨hlater.tells (hmem _ (by simp [LegPostings.movements])),
    hlater.tells (hmem _ (by simp [LegPostings.movements]))⟩

/-- Two desks at one moment: an exchange at each, one that is not committed, and a deletion. -/
def busyHour : List (Nat × Environment × Operation) :=
  [(0, {}, .execute smallRequest), (1, {}, .execute smallRequest),
    (1, { faults := fun call _ => if call = .commit then some (.unavailable "offline") else none },
      .execute smallRequest),
    (0, {}, .deleteExchange ⟨1⟩)]

theorem work_identifies_busyHour :
    smallBook.journal = [] ∧ ∃ u, u = (opened fun _ => smallBook).work busyHour ∧
      u.movements.length = 12 ∧ (u.movements.map (·.correlation)).Nodup ∧
      ∃ legs, (Desk.execute smallRequest {} (u.seat 0)).1 = .ok legs ∧
        ∀ later, ∀ leg ∈ legs,
          (((u.after (0, {}, .execute smallRequest)).work later).book 0).Tells
            leg.postings.outward := by
  refine ⟨rfl, _, rfl, by decide +kernel, ?_⟩
  obtain ⟨-, ⟨hdistinct, -⟩, hlegs⟩ :=
    @work_identifies (fun _ => smallBook) (fun _ => rfl) busyHour _ rfl
  refine ⟨hdistinct, ?_⟩
  obtain ⟨legs, hanswer, -, -, htells⟩ := hlegs 0 {} smallRequest
  have hok : (Desk.execute smallRequest {}
      (((opened fun _ => smallBook).work busyHour).seat 0)).1.isOk = true := by decide +kernel
  cases hrun : (Desk.execute smallRequest {}
      (((opened fun _ => smallBook).work busyHour).seat 0)).1 with
  | error e =>
    rw [hrun] at hok
    cases hok
  | ok answered =>
    obtain rfl := hanswer answered hrun
    exact ⟨_, rfl, fun later leg hleg => (htells later leg hleg).1⟩

end Bureau

end ExchangeDesk
