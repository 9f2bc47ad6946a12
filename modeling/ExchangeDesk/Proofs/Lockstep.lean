import ExchangeDesk.Proofs.CoupledExchange
import ExchangeDesk.Proofs.Untimed

/-!
# Two runs in step

Two sessions are alike if they differ only in their rates and in what the clock has
shown them. Two runs are in step if they leave sessions alike and end in the same way
(`Coupling.lockstep`): their records differ in times at most (`Coupling.inStep`), and so
do the legs of two exchanges (`SameLegs.of_inStep`).
-/

namespace ExchangeDesk

open ExchangeDesk.Action

-- ---------------------------------------------------------------------------
-- Alike sessions
-- ---------------------------------------------------------------------------

def Book.withRates (b : Book) (rates : List Rate) (next : Nat) : Book :=
  { b with rates, nextRate := next }

def Staged.untimed (staged : Staged) : Staged :=
  { staged with
    exchanges := staged.exchanges.map (·.untimed)
    journal := staged.journal.map (·.untimed) }

/-- Two sessions that are in step since they began, one with the book `b` and the
other one with the rates of `b'`. -/
structure Session.Alike (b b' : Book) (s s' : Session) : Prop where
  currencies : s.book.currencies = b.currencies
  rates : s.book.rates = b.rates
  nextRate : s.book.nextRate = b.nextRate
  book : s'.book.untimed = s.book.untimed.withRates b'.rates b'.nextRate
  staged : s'.staged.untimed = s.staged.untimed
  sequence : s'.sequence = s.sequence
  readings : s'.readings = s.readings
  calls : s'.calls = s.calls
  log : s'.log = s.log

structure Environment.Alike (env env' : Environment) : Prop where
  faults : env'.faults = env.faults
  rateScale : env'.rateScale = env.rateScale
  atomicity : env'.atomicity = env.atomicity

variable {b b' : Book} {env env' : Environment} {s s' : Session}

namespace Session.Alike

theorem refl (s : Session) : s.Alike s.book s.book s := ⟨rfl, rfl, rfl, rfl, rfl, rfl, rfl, rfl, rfl⟩

theorem field {α : Type} (h : s.Alike b b' s') (f : Book → α) :
    f s'.book.untimed = f (s.book.untimed.withRates b'.rates b'.nextRate) := by
  rw [h.book]

theorem setup (h : s.Alike b b' s') : s.book.SameSetup s'.book :=
  ⟨h.field (·.currencies), h.field (·.cashiers), h.field (·.accounts)⟩

theorem rates_eq (h : s.Alike b b' s') : s'.book.rates = b'.rates := h.field (·.rates)

theorem nextExchange (h : s.Alike b b' s') : s'.book.nextExchange = s.book.nextExchange :=
  h.field (·.nextExchange)

theorem book_untimed (h : s.Alike b b s') : s'.book.untimed = s.book.untimed := by
  rw [h.book, ← h.rates, ← h.nextRate]
  rfl

end Session.Alike

theorem Staged.untimed_iff {staged staged' : Staged} : staged'.untimed = staged.untimed ↔
    staged'.exchanges.map (·.untimed) = staged.exchanges.map (·.untimed) ∧
      staged'.transactions = staged.transactions ∧
      staged'.journal.map (·.untimed) = staged.journal.map (·.untimed) := by
  simp [untimed]

-- ---------------------------------------------------------------------------
-- Staged records
-- ---------------------------------------------------------------------------

def Book.clash? (b : Book) (staged : Staged) : Option ExchangeId :=
  (staged.exchanges.map (·.id)).find? fun id => (b.findExchange id).isSome

def Book.take (b : Book) (staged : Staged) : Book :=
  { b with
    exchanges := b.exchanges ++ staged.exchanges
    transactions := b.transactions ++ staged.transactions
    journal := b.journal ++ staged.journal }

theorem Book.commit_eq (b : Book) (staged : Staged) : b.commit staged =
    match b.clash? staged with
    | some id => .error (.conflict s!"exchange {id} already exists")
    | none => .ok (b.take staged) := by
  rw [commit, clash?, List.find?_map, Function.comp_def]
  cases staged.exchanges.find? fun e => (b.findExchange e.id).isSome with
  | some clash => rfl
  | none => rfl

theorem Book.clash?_untimed (b : Book) (staged : Staged) :
    b.untimed.clash? staged.untimed = b.clash? staged := by
  have hids : staged.untimed.exchanges.map (·.id) = staged.exchanges.map (·.id) := by
    rw [Staged.untimed, List.map_map]
    rfl
  have hfind (id : ExchangeId) :
      b.untimed.findExchange id = (b.findExchange id).map (·.untimed) := List.find?_map ..
  simp only [clash?, hids, hfind, Option.isSome_map]

theorem Book.take_untimed (b : Book) (staged : Staged) :
    (b.take staged).untimed = b.untimed.take staged.untimed := by
  simp [take, untimed, Staged.untimed]

theorem Book.commit_untimed {rates : List Rate} {next : Nat} {staged staged' : Staged}
    (hb : b'.untimed = b.untimed.withRates rates next) (hs : staged'.untimed = staged.untimed) :
    (b.commit staged = .ok (b.take staged) ∧ b'.commit staged' = .ok (b'.take staged') ∧
      (b'.take staged').untimed = (b.take staged).untimed.withRates rates next) ∨
    ∃ e, b.commit staged = .error e ∧ b'.commit staged' = .error e := by
  have hclash : b'.clash? staged' = b.clash? staged := by
    rw [← clash?_untimed, hb, hs, ← clash?_untimed b]
    rfl
  rw [commit_eq, commit_eq, hclash]
  cases b.clash? staged with
  | some id => exact .inr ⟨_, rfl, rfl⟩
  | none =>
    refine .inl ⟨rfl, rfl, ?_⟩
    rw [take_untimed, take_untimed, hb, hs]
    rfl

-- ---------------------------------------------------------------------------
-- Runs in step
-- ---------------------------------------------------------------------------

/-- What the clock shows may differ. -/
def Coupling.lockstep (he : env.Alike env') (b b' : Book) : Coupling where
  left := env
  right := env'
  Related := Session.Alike b b'
  Lines := Eq
  errors := True
  faults := he.faults
  rateScale := he.rateScale
  atomicity := he.atomicity
  setup := Session.Alike.setup
  calls := Session.Alike.calls
  called _ hs := { hs with calls := by rw [hs.calls] }
  line _ := rfl
  logged := by
    rintro s s' l _ hs rfl
    exact { hs with log := by rw [hs.log] }

variable {he : env.Alike env'}

theorem Session.Alike.staged_iff (h : s.Alike b b' s') :
    s'.staged.exchanges.map (·.untimed) = s.staged.exchanges.map (·.untimed) ∧
      s'.staged.transactions = s.staged.transactions ∧
      s'.staged.journal.map (·.untimed) = s.staged.journal.map (·.untimed) :=
  Staged.untimed_iff.mp h.staged

namespace Store

theorem begin_inStep : (Coupling.lockstep he b b').Couples begin begin Eq :=
  reach_then_couples <| .of_total (fun _ => rfl) (fun _ => rfl) fun _ _ hs =>
    ⟨rfl, { hs with staged := rfl }⟩

theorem insertExchange_inStep (exchange : NewExchange) (now : Instant) :
    (Coupling.lockstep he b b').Couples (insertExchange exchange)
      (insertExchange { exchange with createdAt := now })
      fun stored stored' => stored.createdAt = exchange.createdAt ∧
        stored' = { stored with createdAt := now } := by
  refine reach_then_couples <| .of_total (fun _ => rfl) (fun _ => rfl) fun s s' hs => ?_
  obtain ⟨hexchanges, htransactions, hjournal⟩ := hs.staged_iff
  refine ⟨⟨rfl, ?_⟩, { hs with
    book := congrArg (fun c : Book => { c with nextExchange := c.nextExchange + 1 }) hs.book
    staged := Staged.untimed_iff.mpr ⟨?_, htransactions, hjournal⟩ }⟩
  · rw [hs.nextExchange]
  · rw [List.map_append, List.map_append, hexchanges, hs.nextExchange]
    rfl

theorem recordTransaction_inStep (transaction : CashTransaction) :
    (Coupling.lockstep he b b').Couples (recordTransaction transaction)
      (recordTransaction transaction) Eq := by
  refine reach_then_couples <| .of_total (fun _ => rfl) (fun _ => rfl) fun s s' hs => ?_
  obtain ⟨hexchanges, htransactions, hjournal⟩ := hs.staged_iff
  refine ⟨rfl, { hs with staged := Staged.untimed_iff.mpr ⟨hexchanges, ?_, hjournal⟩ }⟩
  exact congrArg (· ++ [transaction]) htransactions

theorem postEntry_inStep {entry entry' : JournalEntry} (h : entry'.untimed = entry.untimed) :
    (Coupling.lockstep he b b').Couples (postEntry entry) (postEntry entry') Eq := by
  refine reach_then_couples <| .of_total (fun _ => rfl) (fun _ => rfl) fun s s' hs => ?_
  obtain ⟨hexchanges, htransactions, hjournal⟩ := hs.staged_iff
  refine ⟨rfl, { hs with staged := Staged.untimed_iff.mpr ⟨hexchanges, htransactions, ?_⟩ }⟩
  rw [List.map_append, List.map_append, hjournal, List.map_singleton, h, List.map_singleton]

theorem commit_inStep : (Coupling.lockstep he b b').Couples commit commit Eq := by
  refine reach_then_couples fun s s' hs => ?_
  rcases Book.commit_untimed hs.book hs.staged with ⟨hc, hc', htaken⟩ | ⟨e, hc, hc'⟩
  · simp only [hc, hc']
    exact .of_ok rfl rfl rfl { hs with book := htaken, staged := rfl }
  · simp only [hc, hc']
    exact .of_error rfl fun _ => ⟨s', rfl, hs⟩

end Store

theorem readClock_inStep : (Coupling.lockstep he b b').Couples
    (readClock : Action DeskError Instant) readClock
    fun now now' => ∃ n, now = env.clock n ∧ now' = env'.clock n :=
  .of_total (fun _ => rfl) (fun _ => rfl) fun s _ hs =>
    ⟨⟨s.readings, rfl, congrArg env'.clock hs.readings⟩,
      { hs with readings := congrArg (· + 1) hs.readings }⟩

theorem drawSequence_inStep : (Coupling.lockstep he b b').Couples
    (drawSequence : Action DeskError Nat) drawSequence Eq :=
  .of_total (fun _ => rfl) (fun _ => rfl) fun _ _ hs =>
    ⟨hs.sequence.symm, { hs with sequence := congrArg (· + 1) hs.sequence }⟩

theorem draftMovement_inStep (m m' : CashMovement) : (Coupling.lockstep he b b').Couples
    (draftMovement m : Action DeskError Unit) (draftMovement m') Eq :=
  .of_total (fun _ => rfl) (fun _ => rfl) fun _ _ hs => ⟨rfl, { hs with }⟩

theorem Exchange.drafted_untimed {e e' : Exchange} (h : e'.untimed = e.untimed)
    (cashier : Cashier) (direction : Direction) (now now' : Instant) (vault teller : GlAccountId)
    (n : Nat) : (e'.drafted cashier direction now' vault teller n).untimed =
      (e.drafted cashier direction now vault teller n).untimed := by
  rw [Exchange.eq_of_untimed h]
  cases direction with
  | inward | outward =>
    simp only [drafted, CashMovement.untimed, Desk.journalEntry_untimed now' now]
    rfl

/-- In step, the records of two runs differ in times at most. -/
def Coupling.inStep (he : env.Alike env') (b b' : Book) (request : ExchangeRequest) :
    (lockstep he b b').Settlement request where
  Plans := Eq
  Times _ _ := True
  Numbers := Eq
  Records _ _ e e' := e'.untimed = e.untimed
  Movements _ _ m m' := m'.untimed = m.untimed
  begins := Store.begin_inStep
  clock := readClock_inStep.mono fun _ _ _ => trivial
  inserts := by
    rintro p _ now now' rfl -
    refine (Store.insertExchange_inStep (Desk.PlannedLeg.record p request now) now').mono ?_
    rintro stored _ ⟨-, rfl⟩
    rfl
  terms h := by
    rw [Exchange.eq_of_untimed h]
    exact ⟨rfl, rfl, rfl, rfl⟩
  sequence := drawSequence_inStep
  drafts := draftMovement_inStep
  drafted cashier direction vault teller h := by
    rintro rfl
    exact Exchange.drafted_untimed h cashier direction _ _ vault teller _
  cash h := by
    rw [(CashMovement.mk.inj h).1]
    exact Store.recordTransaction_inStep _
  debit h := Store.postEntry_inStep (CashMovement.mk.inj h).2.1
  credit h := Store.postEntry_inStep (CashMovement.mk.inj h).2.2
  commits := Store.commit_inStep
  committed h := by
    rw [Exchange.eq_of_untimed h]
    rfl

/-- The same legs but for the clock. -/
def SameLegs (legs legs' : List ExecutedLeg) : Prop :=
  legs'.map (·.untimed) = legs.map (·.untimed)

theorem SameLegs.of_inStep {request : ExchangeRequest} {legs legs' : List ExecutedLeg}
    (h : List.Forall₂ (Coupling.inStep he b b' request).Legs legs legs') : SameLegs legs legs' := by
  induction h with
  | nil => rfl
  | cons hleg _ ih =>
    obtain ⟨_, _, -, hrecord, hout, hin⟩ := hleg
    rw [SameLegs, List.map_cons, List.map_cons, ih, ExecutedLeg.untimed, ExecutedLeg.untimed,
      LegPostings.untimed, LegPostings.untimed, hrecord, hout, hin]

end ExchangeDesk
