import ExchangeDesk.Desk.Exchanges
import ExchangeDesk.Proofs.Decimal
import ExchangeDesk.Proofs.Store

/-!
# What is posted for a leg

A leg moves cash in two directions. `Posted` says what the movement of one
direction consists of, down to the accounts, the number of its correlation id
and each field of its entries; `PostingsOf` says it of both movements of a leg.
Posting a leg stages exactly these records (`postLeg_triple`).
-/

namespace ExchangeDesk

open ExchangeDesk.Action

variable {env : Environment} {s : Session}

-- ---------------------------------------------------------------------------
-- The two directions of a leg
-- ---------------------------------------------------------------------------

/-- What a user gives goes out of the till, and what a user takes comes in. -/
def Exchange.amountMoved (e : Exchange) : Direction → Decimal
  | .outward => e.amountGiven
  | .inward => e.amountTaken

def Exchange.currencyMoved (e : Exchange) : Direction → CurrencyCode
  | .outward => e.currencyFrom
  | .inward => e.currencyTo

def Direction.accounts (vault teller : GlAccountId) : Direction → GlAccountId × GlAccountId
  | .inward => (teller, vault)
  | .outward => (vault, teller)

/-- The movement of one direction of a leg, under the correlation id with a
number of the sequence. -/
structure Posted (b : Book) (leg : Exchange) (cashier : Cashier) (instant : Instant)
    (direction : Direction) (sequence : Nat) (m : CashMovement) : Prop where
  transaction : m.transaction = Desk.cashTransaction leg cashier direction
    (leg.amountMoved direction) (leg.currencyMoved direction)
  accounts : ∃ vault teller,
    b.findAccount .cashAtMainVault (leg.currencyMoved direction) = some vault ∧
    b.findAccount .cashAtTeller (leg.currencyMoved direction) = some teller ∧
    (m.debit.glAccount, m.credit.glAccount) = direction.accounts vault.glAccount teller.glAccount
  debit : m.debit = Desk.journalEntry leg cashier m.transaction
    (.generate instant leg.user.user cashier.office sequence) .debit m.debit.glAccount
  credit : m.credit = Desk.journalEntry leg cashier m.transaction
    (.generate instant leg.user.user cashier.office sequence) .credit m.credit.glAccount

/-- The postings of a leg. The cash goes out under one number of the sequence
and comes in under the next. -/
def PostingsOf (b : Book) (leg : Exchange) (instant : Instant) (sequence : Nat)
    (p : LegPostings) : Prop :=
  ∃ cashier, b.findCashier leg.user.staff = some cashier ∧
    Posted b leg cashier instant .outward sequence p.outward ∧
    Posted b leg cashier instant .inward (sequence + 1) p.inward

/-- A movement of an exchange as it stands in the ledger. The credit differs from
the debit in side and account only. -/
structure Settles (b : Book) (e : Exchange) (direction : Direction) (m : CashMovement) : Prop where
  transaction : m.transaction.direction = direction ∧
    m.transaction.amount = e.amountMoved direction ∧
    m.transaction.currency = e.currencyMoved direction ∧
    m.transaction.date = e.date ∧ m.transaction.note = e.client.name
  entries : m.debit.amount = m.transaction.amount ∧ m.debit.currency = m.transaction.currency ∧
    m.debit.date = m.transaction.date ∧ m.debit.description = m.transaction.note ∧
    m.debit.rate = e.rate ∧ m.debit.manual = false
  sides : m.debit.side = .debit ∧
    m.credit = { m.debit with side := .credit, glAccount := m.credit.glAccount }
  cashier : ∃ cashier, b.findCashier e.user.staff = some cashier ∧
    m.transaction.cashier = cashier.id ∧ m.debit.office = cashier.office
  accounts : ∃ vault teller,
    b.findAccount .cashAtMainVault m.transaction.currency = some vault ∧
    b.findAccount .cashAtTeller m.transaction.currency = some teller ∧
    (m.debit.glAccount, m.credit.glAccount) = direction.accounts vault.glAccount teller.glAccount

theorem Posted.settles {b : Book} {leg : Exchange} {cashier : Cashier} {instant : Instant}
    {direction : Direction} {sequence : Nat} {m : CashMovement}
    (hcashier : b.findCashier leg.user.staff = some cashier)
    (h : Posted b leg cashier instant direction sequence m) : Settles b leg direction m := by
  obtain ⟨ht, haccounts, hd, hc⟩ := h
  refine ⟨?_, ?_, ?_, ⟨cashier, hcashier, ?_, ?_⟩, ?_⟩
  · rw [ht]
    exact ⟨rfl, rfl, rfl, rfl, rfl⟩
  · rw [hd]
    exact ⟨rfl, rfl, rfl, rfl, rfl, rfl⟩
  · rw [hd, hc]
    exact ⟨rfl, rfl⟩
  · rw [ht]
    rfl
  · rw [hd]
    rfl
  · rw [ht]
    exact haccounts

theorem PostingsOf.settles {b : Book} {leg : Exchange} {instant : Instant} {sequence : Nat}
    {p : LegPostings} (h : PostingsOf b leg instant sequence p) :
    Settles b leg .outward p.outward ∧ Settles b leg .inward p.inward := by
  obtain ⟨cashier, hcashier, hout, hin⟩ := h
  exact ⟨hout.settles hcashier, hin.settles hcashier⟩

theorem Settles.isBalanced {b : Book} {e : Exchange} {direction : Direction} {m : CashMovement}
    (h : Settles b e direction m) : m.isBalanced = true := by
  obtain ⟨hamount, hcurrency, -⟩ := h.entries
  obtain ⟨hside, hcredit⟩ := h.sides
  rw [CashMovement.isBalanced, hcredit]
  simp [hside, hamount, hcurrency]

-- ---------------------------------------------------------------------------
-- The two places of a movement
-- ---------------------------------------------------------------------------

def Activity.side : Activity → Direction → EntrySide
  | .cashAtMainVault, .outward => .debit
  | .cashAtMainVault, .inward => .credit
  | .cashAtTeller, .outward => .credit
  | .cashAtTeller, .inward => .debit

def CashMovement.entryAt (m : CashMovement) (activity : Activity) : JournalEntry :=
  match activity.side m.transaction.direction with
  | .debit => m.debit
  | .credit => m.credit

structure EntryOf (b : Book) (e : Exchange) (direction : Direction) (activity : Activity)
    (entry : JournalEntry) : Prop where
  currency : entry.currency = e.currencyMoved direction
  amount : entry.amount = e.amountMoved direction
  side : entry.side = activity.side direction
  account : ∃ account, b.findAccount activity (e.currencyMoved direction) = some account ∧
    entry.glAccount = account.glAccount

theorem Settles.entryAt {b : Book} {e : Exchange} {direction : Direction} {m : CashMovement}
    (h : Settles b e direction m) (activity : Activity) :
    EntryOf b e direction activity (m.entryAt activity) := by
  obtain ⟨hdirection, hamount, hcurrency, -⟩ := h.transaction
  obtain ⟨hamount', hcurrency', -⟩ := h.entries
  obtain ⟨hside, hcredit⟩ := h.sides
  obtain ⟨vault, teller, hvault, hteller, haccounts⟩ := h.accounts
  rw [hcurrency] at hvault hteller hcurrency'
  rw [hamount] at hamount'
  have hcredited : m.credit.currency = e.currencyMoved direction ∧
      m.credit.amount = e.amountMoved direction ∧ m.credit.side = .credit := by
    rw [hcredit]
    exact ⟨hcurrency', hamount', rfl⟩
  obtain ⟨hcurrency'', hamount'', hside'⟩ := hcredited
  rw [CashMovement.entryAt, hdirection]
  cases direction with
  | outward =>
    obtain ⟨hdebit, hcredit⟩ := Prod.mk.inj haccounts
    cases activity with
    | cashAtMainVault => exact ⟨hcurrency', hamount', hside, vault, hvault, hdebit⟩
    | cashAtTeller => exact ⟨hcurrency'', hamount'', hside', teller, hteller, hcredit⟩
  | inward =>
    obtain ⟨hdebit, hcredit⟩ := Prod.mk.inj haccounts
    cases activity with
    | cashAtMainVault => exact ⟨hcurrency'', hamount'', hside', vault, hvault, hcredit⟩
    | cashAtTeller => exact ⟨hcurrency', hamount', hside, teller, hteller, hdebit⟩

-- ---------------------------------------------------------------------------
-- Staging
-- ---------------------------------------------------------------------------

def Staged.addMovement (staged : Staged) (m : CashMovement) : Staged :=
  { staged with
    transactions := staged.transactions ++ [m.transaction]
    journal := staged.journal ++ [m.debit, m.credit] }

def Staged.addPostings (staged : Staged) (p : LegPostings) : Staged :=
  { staged with
    transactions := staged.transactions ++ p.movements.map (·.transaction)
    journal := staged.journal ++ p.entries }

theorem Staged.addPostings_eq (staged : Staged) (p : LegPostings) :
    staged.addPostings p = (staged.addMovement p.outward).addMovement p.inward := by
  simp [addPostings, addMovement, LegPostings.movements, LegPostings.entries]

namespace Desk

theorem findAccount_reads (activity : Activity) (currency : CurrencyCode) :
    Reads (findAccount activity currency) env s fun id =>
      ∃ account, s.book.findAccount activity currency = some account ∧ id = account.glAccount := by
  refine Reads.bind (Store.findAccount_reads activity currency).concealing ?_
  rintro _ s' rfl -
  refine Reads.bind Reads.orFail ?_
  rintro account s'' haccount -
  exact Reads.pure ⟨account, haccount, rfl⟩

theorem movement_writes (leg : Exchange) (cashier : Cashier) (direction : Direction)
    (instant : Instant) :
    Writes (movement leg cashier direction (leg.amountMoved direction) (leg.currencyMoved direction)
      instant) env s fun m t =>
        Posted s.book leg cashier instant direction s.sequence m ∧
          t = { s with sequence := s.sequence + 1 } := by
  refine Reads.before (.refl s) (findAccount_reads ..) (fun _ _ h => h) ?_
  rintro _ s₁ ⟨vault, hvault, rfl⟩ h₁
  refine Reads.before h₁ (findAccount_reads ..) (fun _ _ h => h) ?_
  rintro _ s₂ ⟨teller, hteller, rfl⟩ h₂
  rw [h₁.book] at hteller
  -- the accounts to debit and to credit are known only when the direction is
  cases direction with
  | inward =>
    refine Triple.of_run rfl ⟨_, ⟨⟨rfl, ?_, ?_, ?_⟩, rfl⟩, { h₂.draw with }⟩
    · exact ⟨vault, teller, hvault, hteller, rfl⟩
    · rw [← h₂.sequence]; rfl
    · rw [← h₂.sequence]; rfl
  | outward =>
    refine Triple.of_run rfl ⟨_, ⟨⟨rfl, ?_, ?_, ?_⟩, rfl⟩, { h₂.draw with }⟩
    · exact ⟨vault, teller, hvault, hteller, rfl⟩
    · rw [← h₂.sequence]; rfl
    · rw [← h₂.sequence]; rfl

theorem preparePostings_triple (leg : Exchange) (instant : Instant) :
    Triple (preparePostings leg instant) env s
      (fun p s' => PostingsOf s.book leg instant s.sequence p ∧
        Session.Agrees { s with sequence := s.sequence + 2 } s')
      (fun _ s' => s.Spares s') := by
  refine Reads.before (.refl s) (Store.findCashier_reads _).concealing (fun _ _ h => h.spares) ?_
  rintro _ s₁ rfl h₁
  refine Reads.before h₁ Reads.orFail (fun _ _ h => h.spares) ?_
  rintro cashier s₂ hcashier h₂
  refine Triple.seq (movement_writes leg cashier .outward instant)
    (fun _ _ h => (h₂.trans h).spares) ?_
  rintro outward s₃ ⟨_, ⟨hout, rfl⟩, h₃⟩
  replace h₃ := h₂.draw.trans h₃
  refine Triple.seq (movement_writes leg cashier .inward instant)
    (fun _ _ h => (Session.Spares.draw s).trans (h₃.trans h).spares) ?_
  rintro inward s₄ ⟨_, ⟨hin, rfl⟩, h₄⟩
  rw [h₂.book, h₂.sequence] at hout
  rw [h₃.book, h₃.sequence] at hin
  exact Triple.pure ⟨⟨cashier, hcashier, hout, hin⟩, h₃.draw.trans h₄⟩

theorem recordMovement_triple (m : CashMovement) :
    Triple (recordMovement m) env s
      (fun _ s' => Session.Agrees { s with staged := s.staged.addMovement m } s')
      (fun _ s' => s.Spares s') := by
  refine Triple.seq (Store.recordTransaction_writes _).concealing (fun _ _ h => h.spares) ?_
  rintro _ s₁ ⟨_, rfl, h₁⟩
  refine Triple.seq (Store.postEntry_writes _).concealing
    (fun _ _ h => (Session.Spares.stage ..).trans (h₁.trans h).spares) ?_
  rintro _ s₂ ⟨_, rfl, h₂⟩
  replace h₂ := (h₁.stage fun staged => { staged with
    journal := staged.journal ++ [m.debit] }).trans h₂
  refine Triple.mono (Store.postEntry_writes _).concealing ?_
    fun _ _ h => (Session.Spares.stage ..).trans (h₂.trans h).spares
  rintro _ s₃ ⟨_, rfl, h₃⟩
  have h := (h₂.stage fun staged => { staged with
    journal := staged.journal ++ [m.credit] }).trans h₃
  simpa [Staged.addMovement] using h

theorem postLeg_triple (leg : Exchange) (instant : Instant) :
    Triple (postLeg leg instant) env s
      (fun p s' => PostingsOf s.book leg instant s.sequence p ∧ Session.Agrees { s with
        sequence := s.sequence + 2, staged := s.staged.addPostings p } s')
      (fun _ s' => s.Spares s') := by
  refine Triple.bind (preparePostings_triple leg instant) ?_
  rintro p s₁ ⟨hp, h₁⟩
  have hspares : s.Spares s₁ :=
    ((Session.Spares.draw s).trans (Session.Spares.draw _)).trans h₁.spares
  refine Triple.seq (recordMovement_triple p.outward) (fun _ _ h => hspares.trans h) ?_
  rintro _ s₂ h₂
  replace h₂ := (h₁.stage (·.addMovement p.outward)).trans h₂
  have hspares : s.Spares s₂ :=
    (((Session.Spares.draw s).trans (Session.Spares.draw _)).trans (.stage ..)).trans h₂.spares
  refine Triple.seq (recordMovement_triple p.inward) (fun _ _ h => hspares.trans h) ?_
  rintro _ s₃ h₃
  replace h₃ := (h₂.stage (·.addMovement p.inward)).trans h₃
  refine Triple.pure ⟨hp, ?_⟩
  rw [Staged.addPostings_eq]
  exact h₃

end Desk
end ExchangeDesk
