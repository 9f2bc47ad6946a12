import ExchangeDesk.Proofs.Grounds

/-!
# Exchanges at another time

A clock that ticks once a reading shows which reading a time is from. What an exchange does by
such a clock tells what it does by any other one: with the readings of the other clock in the
places of the ticks the legs are the same, and the error, the log and the number of readings are
the same as they are (`execute_retimed`).
-/

namespace ExchangeDesk

open ExchangeDesk.Action

-- ---------------------------------------------------------------------------
-- Other times
-- ---------------------------------------------------------------------------

/-- The clock that shows the number of the reading. -/
def tick (n : Nat) : Instant := ⟨n⟩

/-- The reading of another clock that a tick stands for. -/
def Instant.shown (clock : Nat → Instant) (now : Instant) : Instant := clock now.nanos.toNat

/-- The id with another time at its beginning. -/
def CorrelationId.stamped (now : Instant) (id : CorrelationId) : CorrelationId :=
  ⟨String.ofList (hex now.millis.toNat ++ id.text.toList.dropWhile (· != '-'))⟩

def JournalEntry.stamped (now : Instant) (e : JournalEntry) : JournalEntry :=
  { e with correlation := e.correlation.stamped now }

def CashMovement.stamped (now : Instant) (m : CashMovement) : CashMovement :=
  { m with debit := m.debit.stamped now, credit := m.credit.stamped now }

def LegPostings.stamped (now : Instant) (p : LegPostings) : LegPostings :=
  { outward := p.outward.stamped now, inward := p.inward.stamped now }

def Exchange.stamped (now : Instant) (e : Exchange) : Exchange := { e with createdAt := now }

def ExecutedLeg.stamped (now : Instant) (leg : ExecutedLeg) : ExecutedLeg :=
  { exchange := leg.exchange.stamped now, postings := leg.postings.stamped now }

/-- The leg by another clock. All times in it are of one reading. -/
def ExecutedLeg.shown (clock : Nat → Instant) (leg : ExecutedLeg) : ExecutedLeg :=
  leg.stamped (leg.exchange.createdAt.shown clock)

theorem CorrelationId.generate_stamped (instant instant' : Instant) (user : UserId)
    (office : OfficeId) (sequence : Nat) :
    (generate instant user office sequence).stamped instant' =
      generate instant' user office sequence := by
  simp only [stamped, generate, String.toList_ofList, List.append_assoc, List.cons_append,
    dropWhile_hex]

theorem CorrelationId.stamped_untimed (now : Instant) (id : CorrelationId) :
    (id.stamped now).untimed = id.untimed := by
  have hhex : ∀ c ∈ hex now.millis.toNat, (c != '-') = true := by
    intro c hc
    have hne : c ≠ '-' := fun heq => dash_not_mem_hex _ (heq ▸ hc)
    simpa using hne
  simp only [untimed, stamped, String.toList_ofList, List.dropWhile_append_of_pos hhex]
  -- what is left begins with a dash, or nothing is left
  congr 2
  induction id.text.toList with
  | nil => rfl
  | cons c rest ih =>
    rw [List.dropWhile_cons]
    split
    · exact ih
    · next hc => rw [List.dropWhile_cons, if_neg hc]

theorem JournalEntry.stamped_untimed (now : Instant) (e : JournalEntry) :
    (e.stamped now).untimed = e.untimed := by
  simp only [untimed, stamped, CorrelationId.stamped_untimed]

theorem Desk.journalEntry_stamped (now : Instant) (leg : Exchange) (cashier : Cashier)
    (transaction : CashTransaction) (correlation : CorrelationId) (side : EntrySide)
    (account : GlAccountId) :
    (journalEntry leg cashier transaction correlation side account).stamped now =
      journalEntry (leg.stamped now) cashier transaction (correlation.stamped now) side account :=
  rfl

-- ---------------------------------------------------------------------------
-- Runs by ticks and by another clock
-- ---------------------------------------------------------------------------

section

variable {env : Environment} {clock : Nat → Instant} {b : Book} {request : ExchangeRequest}

theorem Environment.alike_clock (env : Environment) (clock : Nat → Instant) :
    Environment.Alike { env with clock := tick } { env with clock } := ⟨rfl, rfl, rfl⟩

abbrev Coupling.retimed (env : Environment) (clock : Nat → Instant) (b : Book) : Coupling :=
  lockstep (env.alike_clock clock) b b

theorem Exchange.drafted_stamped (e : Exchange) (cashier : Cashier) (direction : Direction)
    (now now' : Instant) (vault teller : GlAccountId) (n : Nat) :
    (e.stamped now').drafted cashier direction now' vault teller n =
      (e.drafted cashier direction now vault teller n).stamped now' := by
  cases direction with
  | inward | outward =>
    simp only [drafted, CashMovement.stamped, Desk.journalEntry_stamped,
      CorrelationId.generate_stamped]
    rfl

/-- By the other clock, all that is written is stamped with what that clock shows. -/
def Coupling.stamping (env : Environment) (clock : Nat → Instant) (b : Book)
    (request : ExchangeRequest) : (retimed env clock b).Settlement request where
  Plans := Eq
  Times now now' := now' = now.shown clock
  Numbers := Eq
  Records now now' e e' := e.createdAt = now ∧ e' = e.stamped now'
  Movements _ now' m m' := m' = m.stamped now'
  begins := Store.begin_inStep
  clock := readClock_inStep.mono fun _ _ ⟨_, hnow, hnow'⟩ => by
    rw [hnow, hnow']
    rfl
  inserts := by
    rintro p _ now _ rfl rfl
    exact Store.insertExchange_inStep _ _
  terms := by
    rintro _ _ e _ ⟨-, rfl⟩
    exact ⟨rfl, rfl, rfl, rfl⟩
  sequence := drawSequence_inStep
  drafts := draftMovement_inStep
  drafted cashier direction vault teller := by
    rintro ⟨-, rfl⟩ rfl
    exact Exchange.drafted_stamped _ cashier direction _ _ vault teller _
  cash := by
    rintro _ _ m _ rfl
    exact Store.recordTransaction_inStep _
  debit := by
    rintro _ now' m _ rfl
    exact Store.postEntry_inStep (m.debit.stamped_untimed now')
  credit := by
    rintro _ now' m _ rfl
    exact Store.postEntry_inStep (m.credit.stamped_untimed now')
  commits := Store.commit_inStep
  committed := by
    rintro _ _ e _ ⟨-, rfl⟩
    rfl

theorem legs_shown {legs legs' : List ExecutedLeg}
    (h : List.Forall₂ (Coupling.stamping env clock b request).Legs legs legs') :
    legs' = legs.map (·.shown clock) := by
  induction h with
  | nil => rfl
  | @cons leg leg' _ _ hleg _ ih =>
    obtain ⟨now, _, rfl, ⟨rfl, hrecord⟩, hout, hin⟩ := hleg
    have hshown : leg' = leg.shown clock :=
      calc leg' = ⟨leg'.exchange, ⟨leg'.postings.outward, leg'.postings.inward⟩⟩ := rfl
        _ = leg.shown clock := by
          rw [hrecord, hout, hin]
          rfl
    rw [ih, hshown, List.map_cons]

end

namespace Desk

theorem resolveAsOf_retimed (currency : CurrencyCode) (type : RateType) (date : Date)
    (env : Environment) (clock : Nat → Instant) (s : Session) :
    (resolveAsOf currency type date { env with clock } s).1 =
      (resolveAsOf currency type date { env with clock := tick } s).1 := by
  have hcouples : (Coupling.retimed env clock s.book).Couples (resolveAsOf currency type date)
      (resolveAsOf currency type date) Eq :=
    resolveAsOf_couples fun _ _ hs => hs.findRateAsOf rfl
  exact (hcouples s s (.refl s)).answer trivial

/-- By any clock an exchange is what it is by ticks, with its readings in the places of these. -/
theorem execute_retimed (request : ExchangeRequest) (env : Environment) (clock : Nat → Instant)
    (s : Session) :
    (execute request { env with clock } s).1 =
        (execute request { env with clock := tick } s).1.map (·.map (·.shown clock)) ∧
      (execute request { env with clock := tick } s).2.Alike s.book s.book
        (execute request { env with clock } s).2 := by
  have hgrounds : SameGrounds { env with clock := tick } { env with clock } s.book s.book request :=
    ⟨fun _ _ => rfl, fun _ _ _ _ => rfl, fun _ _ _ _ => rfl, fun _ _ _ _ => rfl⟩
  have halike : EndAlike (Session.Alike s.book s.book) True
      (fun legs legs' => legs' = legs.map (·.shown clock))
      (execute request { env with clock := tick } s) (execute request { env with clock } s) :=
    (execute_couples (Coupling.stamping env clock s.book request) hgrounds.preparation).mono
      (fun _ _ => legs_shown) s s (.refl s)
  rcases halike.cases trivial with ⟨legs, _, t, t', hrun, hrun', rfl, ht⟩ |
    ⟨e, t, t', hrun, hrun', ht⟩
  · rw [hrun, hrun']
    exact ⟨rfl, ht⟩
  · rw [hrun, hrun']
    exact ⟨rfl, ht⟩

end Desk
end ExchangeDesk
