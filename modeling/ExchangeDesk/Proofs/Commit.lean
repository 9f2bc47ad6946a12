import Mathlib.Data.List.Nodup
import ExchangeDesk.Proofs.Posting

/-!
# What a unit of work commits

Legs are written from plans into a unit of work: `Written` says what each leg
is, `Committed` that the whole unit went into the book and nothing else did. A
unit that fails spares the book. Committing leg by leg is a sequence of units;
it commits the legs before the first one that fails (`BrokenOff`).
-/

namespace ExchangeDesk

open ExchangeDesk.Action

variable {env : Environment} {s s' s'' : Session} {b b' : Book} {request : ExchangeRequest}
  {plans plans' : List PlannedLeg} {legs legs' : List ExecutedLeg} {number sequence : Nat}

-- ---------------------------------------------------------------------------
-- Legs and their records
-- ---------------------------------------------------------------------------

def Staged.addLegs (staged : Staged) (legs : List ExecutedLeg) : Staged :=
  { exchanges := staged.exchanges ++ legs.map (·.exchange)
    transactions := staged.transactions ++
      legs.flatMap fun leg => leg.postings.movements.map (·.transaction)
    journal := staged.journal ++ legs.flatMap fun leg => leg.postings.entries }

theorem Staged.addLegs_cons (staged : Staged) (leg : ExecutedLeg) (legs : List ExecutedLeg) :
    staged.addLegs (leg :: legs) = ({ staged with
      exchanges := staged.exchanges ++ [leg.exchange] }.addPostings leg.postings).addLegs legs := by
  simp [addLegs, addPostings]

@[simp] theorem Staged.addLegs_nil (staged : Staged) : staged.addLegs [] = staged := by
  simp [addLegs]

/-- The session with more legs written into its unit of work: each has drawn a
number of its own and two of the sequence. -/
def Session.write (s : Session) (legs : List ExecutedLeg) : Session :=
  { s with
    book.nextExchange := s.book.nextExchange + legs.length
    staged := s.staged.addLegs legs
    sequence := s.sequence + 2 * legs.length }

@[simp] theorem Session.write_nil (s : Session) : s.write [] = s := by simp [write]

theorem Session.write_cons (s : Session) (leg : ExecutedLeg) (legs : List ExecutedLeg) :
    s.write (leg :: legs) = (s.write [leg]).write legs := by
  have hnumber : s.book.nextExchange + (legs.length + 1) =
      s.book.nextExchange + 1 + legs.length := by omega
  have hsequence : s.sequence + 2 * (legs.length + 1) = s.sequence + 2 + 2 * legs.length := by omega
  simp [write, Staged.addLegs, hnumber, hsequence]

theorem Session.Agrees.write (h : s.Agrees s') (legs : List ExecutedLeg) :
    (s.write legs).Agrees (s'.write legs) := by
  obtain ⟨hb, hs, hq, hr, ha⟩ := h
  refine ⟨?_, ?_, ?_, hr, ha⟩
  · simp [Session.write, hb]
  · simp [Session.write, hs]
  · simp [Session.write, hq]

theorem Session.Spares.write (s : Session) (legs : List ExecutedLeg) : s.Spares (s.write legs) :=
  ⟨⟨_, Nat.le_add_right _ _, rfl⟩, Nat.le_add_right _ _, rfl⟩

/-- The book with the records of more legs, each under a number of its own. -/
def Book.withLegs (b : Book) (legs : List ExecutedLeg) : Book :=
  { b with
    exchanges := b.exchanges ++ legs.map (·.exchange)
    transactions := b.transactions ++
      legs.flatMap fun leg => leg.postings.movements.map (·.transaction)
    journal := b.journal ++ legs.flatMap fun leg => leg.postings.entries
    nextExchange := b.nextExchange + legs.length }

@[simp] theorem Book.withLegs_nil (b : Book) : b.withLegs [] = b := by simp [withLegs]

theorem Book.withLegs_append (b : Book) (legs legs' : List ExecutedLeg) :
    b.withLegs (legs ++ legs') = (b.withLegs legs).withLegs legs' := by
  simp [withLegs, Nat.add_assoc]

theorem Posted.of_accounts {leg : Exchange} {cashier : Cashier} {instant : Instant}
    {direction : Direction} {m : CashMovement}
    (h : Posted b leg cashier instant direction sequence m) (ha : b'.accounts = b.accounts) :
    Posted b' leg cashier instant direction sequence m :=
  { h with accounts := by simpa only [Book.findAccount, ha] using h.accounts }

theorem PostingsOf.of_setup {leg : Exchange} {instant : Instant} {p : LegPostings}
    (h : PostingsOf b leg instant sequence p) (hc : b'.cashiers = b.cashiers)
    (ha : b'.accounts = b.accounts) : PostingsOf b' leg instant sequence p := by
  obtain ⟨cashier, hcashier, hout, hin⟩ := h
  exact ⟨cashier, by simpa only [Book.findCashier, hc] using hcashier, hout.of_accounts ha,
    hin.of_accounts ha⟩

/-- Legs as they are written from plans: the records under consecutive numbers,
each with its postings under two numbers of the sequence. -/
inductive Written (b : Book) (request : ExchangeRequest) :
    Nat → Nat → List PlannedLeg → List ExecutedLeg → Prop
  | nil {number sequence : Nat} : Written b request number sequence [] []
  | cons {number sequence : Nat} {p : PlannedLeg} {leg : ExecutedLeg} {now : Instant}
      {plans : List PlannedLeg} {legs : List ExecutedLeg}
      (record : leg.exchange = ⟨Desk.PlannedLeg.record p request now, ⟨number⟩⟩)
      (posted : PostingsOf b leg.exchange now sequence leg.postings)
      (rest : Written b request (number + 1) (sequence + 2) plans legs) :
      Written b request number sequence (p :: plans) (leg :: legs)

namespace Written

theorem nil_inv (h : Written b request number sequence [] legs) : legs = [] := by
  cases h
  rfl

theorem cons_inv {p : PlannedLeg} (h : Written b request number sequence (p :: plans) legs) :
    ∃ leg rest now, legs = leg :: rest ∧
      leg.exchange = ⟨Desk.PlannedLeg.record p request now, ⟨number⟩⟩ ∧
      PostingsOf b leg.exchange now sequence leg.postings ∧
      Written b request (number + 1) (sequence + 2) plans rest := by
  cases h with
  | cons record posted rest => exact ⟨_, _, _, rfl, record, posted, rest⟩

theorem of_setup (h : Written b request number sequence plans legs)
    (hc : b'.cashiers = b.cashiers) (ha : b'.accounts = b.accounts) :
    Written b' request number sequence plans legs := by
  induction h with
  | nil => exact .nil
  | cons record posted _ ih => exact .cons record (posted.of_setup hc ha) ih

theorem append (h : Written b request number sequence plans legs)
    (h' : Written b request (number + legs.length) (sequence + 2 * legs.length) plans' legs') :
    Written b request number sequence (plans ++ plans') (legs ++ legs') := by
  induction h with
  | nil => simpa using h'
  | cons record posted _ ih =>
    refine .cons record posted (ih ?_)
    simpa [Nat.add_assoc, Nat.add_comm, Nat.mul_add, Nat.add_left_comm] using h'

theorem posted (h : Written b request number sequence plans legs) :
    ∀ leg ∈ legs, ∃ instant sequence, PostingsOf b leg.exchange instant sequence leg.postings := by
  induction h with
  | nil => simp
  | cons _ posted _ ih => exact List.forall_mem_cons.mpr ⟨⟨_, _, posted⟩, ih⟩

theorem recorded (h : Written b request number sequence plans legs) :
    ∀ leg ∈ legs, ∃ p ∈ plans, ∃ now id,
      leg.exchange = ⟨Desk.PlannedLeg.record p request now, id⟩ := by
  induction h with
  | nil => simp
  | cons record _ _ ih =>
    refine List.forall_mem_cons.mpr ⟨⟨_, List.mem_cons_self, _, _, record⟩, fun leg hleg => ?_⟩
    obtain ⟨p, hp, hrecorded⟩ := ih leg hleg
    exact ⟨p, List.mem_cons_of_mem _ hp, hrecorded⟩

theorem numbers (h : Written b request number sequence plans legs) :
    legs.map (·.exchange.id.number) = List.range' number legs.length := by
  induction h with
  | nil => rfl
  | cons record _ _ ih =>
    rw [List.map_cons, ih, List.length_cons, List.range'_succ]
    simp [record]

theorem number_mem (h : Written b request number sequence plans legs) {leg : ExecutedLeg}
    (hleg : leg ∈ legs) :
    number ≤ leg.exchange.id.number ∧ leg.exchange.id.number < number + legs.length := by
  have hmem : leg.exchange.id.number ∈ legs.map (·.exchange.id.number) := List.mem_map_of_mem hleg
  rw [h.numbers, List.mem_range'_1] at hmem
  exact hmem

theorem ids_nodup (h : Written b request number sequence plans legs) :
    (legs.map (·.exchange.id)).Nodup := by
  refine List.Nodup.of_map Id.number ?_
  rw [List.map_map, Function.comp_def, h.numbers]
  exact List.nodup_range'

theorem find_eq (h : Written b request number sequence plans legs) :
    ∀ leg ∈ legs, (legs.map (·.exchange)).find? (·.id = leg.exchange.id) = some leg.exchange := by
  induction h with
  | nil => simp
  | cons record _ rest ih =>
    intro leg hleg
    rcases List.mem_cons.mp hleg with rfl | hleg
    · simp
    · have hlater := (rest.number_mem hleg).1
      rw [List.map_cons, List.find?_cons_of_neg, ih leg hleg]
      rw [record]
      intro heq
      rw [← of_decide_eq_true heq] at hlater
      exact absurd hlater (Nat.not_succ_le_self _)

end Written

-- ---------------------------------------------------------------------------
-- Committed legs
-- ---------------------------------------------------------------------------

/-- Legs were written from plans, and their records are all that came into the
book. -/
structure Committed (request : ExchangeRequest) (plans : List PlannedLeg)
    (legs : List ExecutedLeg) (s s' : Session) : Prop where
  written : Written s.book request s.book.nextExchange s.sequence plans legs
  fresh : ∀ leg ∈ legs, s.book.findExchange leg.exchange.id = none
  book : s'.book = s.book.withLegs legs
  sequence : s'.sequence = s.sequence + 2 * legs.length
  alarms : s'.alarms = s.alarms

namespace Committed

theorem nil (request : ExchangeRequest) (s : Session) : Committed request [] [] s s :=
  ⟨.nil, by simp, by simp, rfl, rfl⟩

theorem of_nil (h : Committed request [] legs s s') : legs = [] ∧ s.Spares s' := by
  obtain ⟨hwritten, -, hbook, hsequence, halarms⟩ := h
  obtain rfl := hwritten.nil_inv
  rw [Book.withLegs_nil] at hbook
  exact ⟨rfl, ⟨_, Nat.le_refl _, hbook⟩, Nat.le_of_eq hsequence.symm, halarms⟩

theorem of_agrees (hs : s.Agrees s') (h : Committed request plans legs s' s'') :
    Committed request plans legs s s'' := by
  obtain ⟨hw, hf, hb, hq, ha⟩ := h
  rw [hs.book] at hw hf hb
  rw [hs.sequence] at hw hq
  exact ⟨hw, hf, hb, hq, ha.trans hs.alarms⟩

theorem append (h : Committed request plans legs s s')
    (h' : Committed request plans' legs' s' s'') :
    Committed request (plans ++ plans') (legs ++ legs') s s'' := by
  obtain ⟨hw, hf, hb, hq, ha⟩ := h'
  rw [h.book] at hw hf hb
  rw [h.sequence] at hw hq
  replace hw : Written s.book _ _ _ _ _ := hw.of_setup rfl rfl
  refine ⟨h.written.append hw, ?_, ?_, ?_, ha.trans h.alarms⟩
  · intro leg hleg
    rcases List.mem_append.mp hleg with hleg | hleg
    · exact h.fresh leg hleg
    · have hnone := hf leg hleg
      simp only [Book.findExchange, Book.withLegs, List.find?_append,
        Option.or_eq_none_iff] at hnone
      exact hnone.1
  · rw [hb, Book.withLegs_append]
  · rw [hq, List.length_append, Nat.mul_add, Nat.add_assoc]

theorem stored (h : Committed request plans legs s s') :
    ∀ leg ∈ legs, s'.book.findExchange leg.exchange.id = some leg.exchange := by
  intro leg hleg
  have hfresh := h.fresh leg hleg
  rw [Book.findExchange] at hfresh
  rw [h.book, Book.findExchange, Book.withLegs, List.find?_append, hfresh, Option.none_or]
  exact h.written.find_eq leg hleg

end Committed

/-- A book takes the staged records if it holds none of their numbers. -/
theorem Book.commit_ok {staged : Staged} : b.commit staged = .ok b' ↔
    (∀ e ∈ staged.exchanges, b.findExchange e.id = none) ∧
      b' = { b with
        exchanges := b.exchanges ++ staged.exchanges
        transactions := b.transactions ++ staged.transactions
        journal := b.journal ++ staged.journal } := by
  unfold Book.commit
  split
  · next clash hclash =>
    have hmem := List.mem_of_find?_eq_some hclash
    have hfound := List.find?_some hclash
    constructor
    · intro h
      cases h
    · rintro ⟨hfresh, -⟩
      simp [hfresh clash hmem] at hfound
  · next hnone =>
    have hfresh : ∀ e ∈ staged.exchanges, b.findExchange e.id = none := by
      simpa [List.find?_eq_none] using hnone
    exact ⟨fun h => ⟨hfresh, (Except.ok.inj h).symm⟩, fun h => by rw [h.2]⟩

-- ---------------------------------------------------------------------------
-- One unit of work
-- ---------------------------------------------------------------------------

namespace Desk

theorem writeLeg_triple (request : ExchangeRequest) (now : Instant) (p : PlannedLeg) :
    Triple (writeLeg request now p) env s
      (fun leg s' =>
        leg.exchange = ⟨PlannedLeg.record p request now, ⟨s.book.nextExchange⟩⟩ ∧
        PostingsOf s.book leg.exchange now s.sequence leg.postings ∧ (s.write [leg]).Agrees s')
      (fun _ s' => s.Spares s') := by
  refine Triple.seq (Store.insertExchange_writes _).concealing (fun _ _ h => h.spares) ?_
  rintro exchange s₁ ⟨_, ⟨hexchange, rfl⟩, h₁⟩
  have hspares : s.Spares s₁ :=
    ((Session.Spares.number s).trans (.stage ..)).trans h₁.spares
  refine Triple.seq (postLeg_triple exchange now) (fun _ _ h => hspares.trans h) ?_
  rintro postings s₂ ⟨hpostings, h₂⟩
  rw [h₁.book, h₁.sequence] at hpostings
  refine Triple.pure ⟨hexchange, hpostings.of_setup rfl rfl, ?_⟩
  rw [Session.write, Staged.addLegs_cons, Staged.addLegs_nil]
  exact (h₁.draw.draw.stage (·.addPostings postings)).trans h₂

theorem writeLegs_triple (request : ExchangeRequest) (now : Instant) (plans : List PlannedLeg) :
    Triple (writeLegs request now plans) env s
      (fun legs s' => Written s.book request s.book.nextExchange s.sequence plans legs ∧
        (s.write legs).Agrees s')
      (fun _ s' => s.Spares s') := by
  induction plans generalizing s with
  | nil => exact Triple.pure ⟨.nil, by simpa using Session.Agrees.refl s⟩
  | cons p plans ih =>
    refine Triple.bind (writeLeg_triple request now p) ?_
    rintro leg s₁ ⟨hrecord, hposted, h₁⟩
    -- the legs after it are numbered on from the session that this one leaves
    have hspares : s.Spares s₁ := (Session.Spares.write s [leg]).trans h₁.spares
    refine Triple.seq ih (fun _ _ h => hspares.trans h) ?_
    rintro legs s₂ ⟨hwritten, h₂⟩
    rw [h₁.book, h₁.sequence] at hwritten
    refine Triple.pure ⟨.cons hrecord hposted (hwritten.of_setup rfl rfl), ?_⟩
    rw [Session.write_cons]
    exact (h₁.write legs).trans h₂

theorem noteCommitted_triple (legs : List ExecutedLeg) :
    Triple (noteCommitted legs) env s (fun _ s' => s.Agrees s') (fun _ _ => False) := by
  induction legs generalizing s with
  | nil => exact Triple.pure (.refl s)
  | cons leg legs ih =>
    refine (Session.Agrees.refl s).note rfl fun s₁ h₁ => ?_
    exact Triple.mono ih (fun _ _ h => h₁.trans h) fun _ _ h => h

/-- A unit of work commits all of its legs, or spares the book. -/
theorem commitLegs_triple (request : ExchangeRequest) (plans : List PlannedLeg) :
    Triple (commitLegs request plans) env s (fun legs s' => Committed request plans legs s s')
      (fun _ s' => s.Spares s') := by
  refine Triple.seq Store.begin_writes.concealing (fun _ _ h => h.spares) ?_
  rintro _ s₁ ⟨_, rfl, h₁⟩
  have hspares : s.Spares s₁ := (Session.Spares.stage s {}).trans h₁.spares
  refine Triple.bind (Triple.readClock (Q := fun _ s₂ =>
    s₂ = { s₁ with readings := s₁.readings + 1 }) rfl) ?_
  rintro now s₂ rfl
  replace hspares : s.Spares _ := hspares.trans (Session.Spares.read s₁)
  refine Triple.seq (writeLegs_triple request now plans) (fun _ _ h => hspares.trans h) ?_
  rintro legs s₃ ⟨hwritten, h₃⟩
  replace hspares := hspares.trans ((Session.Spares.write _ legs).trans h₃.spares)
  refine Triple.seq Store.commit_writes.concealing (fun _ _ h => hspares.trans h.spares) ?_
  rintro _ s₄ ⟨_, ⟨b, hcommit, rfl⟩, h₄⟩
  refine Triple.seq (noteCommitted_triple legs) (fun _ _ h => h.elim) ?_
  rintro _ s₅ h₅
  replace h₅ := h₄.trans h₅
  refine Triple.pure ?_
  rw [h₃.book, h₃.staged] at hcommit
  simp only [Session.write, h₁.book, h₁.staged] at hcommit
  obtain ⟨hfresh, rfl⟩ := Book.commit_ok.mp hcommit
  simp only [h₁.book, h₁.sequence] at hwritten
  refine ⟨hwritten, ?_, ?_, ?_, ?_⟩
  · simpa [Staged.addLegs, Book.findExchange] using hfresh
  · rw [h₅.book]
    simp [Book.withLegs, Staged.addLegs]
  · rw [h₅.sequence]
    simp [h₃.sequence, Session.write, h₁.sequence]
  · exact h₅.alarms.trans hspares.alarms

end Desk
end ExchangeDesk
