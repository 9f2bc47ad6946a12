import ExchangeDesk.Proofs.CorrelationText
import ExchangeDesk.Proofs.Execute

/-!
# Exchanges up to the clock

The clock shows in two places: in the time at which a record was created, and in
the first part of a correlation id. What is left without them (`untimed`) follows
from the request, the book and the sequence alone (`execute_untimed`).
-/

namespace ExchangeDesk

variable {env env' : Environment} {s s' t t' : Session} {b b' : Book}
  {request request' : ExchangeRequest} {plans plans' : List PlannedLeg}
  {legs legs' : List ExecutedLeg}

-- ---------------------------------------------------------------------------
-- Without the clock
-- ---------------------------------------------------------------------------

/-- What follows the time in a correlation id: user, office and sequence number. -/
def CorrelationId.untimed (id : CorrelationId) : CorrelationId :=
  ⟨String.ofList (id.text.toList.dropWhile (· != '-'))⟩

def JournalEntry.untimed (e : JournalEntry) : JournalEntry :=
  { e with correlation := e.correlation.untimed }

def CashMovement.untimed (m : CashMovement) : CashMovement :=
  { m with debit := m.debit.untimed, credit := m.credit.untimed }

def LegPostings.untimed (p : LegPostings) : LegPostings :=
  { outward := p.outward.untimed, inward := p.inward.untimed }

def Exchange.untimed (e : Exchange) : Exchange := { e with createdAt := ⟨0⟩ }

def ExecutedLeg.untimed (leg : ExecutedLeg) : ExecutedLeg :=
  { exchange := leg.exchange.untimed, postings := leg.postings.untimed }

def Book.untimed (b : Book) : Book :=
  { b with
    exchanges := b.exchanges.map (·.untimed)
    journal := b.journal.map (·.untimed) }

theorem Book.withLegs_untimed (b : Book) (legs : List ExecutedLeg) :
    (b.withLegs legs).untimed = b.untimed.withLegs (legs.map (·.untimed)) := by
  simp [withLegs, untimed, Function.comp_def, ExecutedLeg.untimed, LegPostings.untimed,
    LegPostings.entries, LegPostings.movements, CashMovement.untimed, List.flatMap_map,
    List.map_flatMap]

theorem CorrelationId.dropWhile_hex (n : Nat) (rest : List Char) :
    (hex n ++ '-' :: rest).dropWhile (· != '-') = '-' :: rest := by
  rw [List.dropWhile_append_of_pos]
  · simp
  · intro c hc
    have hne : c ≠ '-' := fun heq => dash_not_mem_hex n (heq ▸ hc)
    simpa using hne

theorem CorrelationId.generate_untimed (instant instant' : Instant) (user : UserId)
    (office : OfficeId) (sequence : Nat) :
    (generate instant user office sequence).untimed =
      (generate instant' user office sequence).untimed := by
  simp only [untimed, generate, String.toList_ofList, List.append_assoc, List.cons_append,
    dropWhile_hex]

theorem Desk.journalEntry_untimed (instant instant' : Instant) {leg : Exchange}
    {cashier : Cashier} {transaction : CashTransaction} {user : UserId} {office : OfficeId}
    {sequence : Nat} {side : EntrySide} {account : GlAccountId} :
    (journalEntry leg cashier transaction (.generate instant user office sequence) side
      account).untimed =
    (journalEntry leg cashier transaction (.generate instant' user office sequence) side
      account).untimed := by
  simp only [JournalEntry.untimed, journalEntry, CorrelationId.generate_untimed instant instant']

-- ---------------------------------------------------------------------------
-- Plans
-- ---------------------------------------------------------------------------

section

variable {scale : Nat} {date : Date} {amount : Decimal} {p p' : PlannedLeg}

theorem PlannedLeg.IntoHome.unique {source home : CurrencyCode}
    (h : p.IntoHome b date source home amount) (h' : p'.IntoHome b date source home amount) :
    p' = p := by
  cases p
  cases p'
  obtain ⟨rfl, rfl, rfl, hrate, htaken⟩ := h
  obtain ⟨rfl, rfl, rfl, hrate', htaken'⟩ := h'
  cases hrate.symm.trans hrate'
  cases htaken.symm.trans htaken'
  rfl

theorem PlannedLeg.OutOfHome.unique {home target : CurrencyCode}
    (h : p.OutOfHome scale b date home target amount)
    (h' : p'.OutOfHome scale b date home target amount) : p' = p := by
  cases p
  cases p'
  obtain ⟨rfl, rfl, rfl, hrate, htaken⟩ := h
  obtain ⟨rfl, rfl, rfl, hrate', htaken'⟩ := h'
  cases hrate.symm.trans hrate'
  cases htaken.symm.trans htaken'
  rfl

theorem Planned.unique {source target : CurrencyCode} {way : Route}
    (h : Planned scale b date source target amount way plans)
    (h' : Planned scale b date source target amount way plans') : plans' = plans := by
  cases h with
  | toHome h =>
    obtain ⟨h'⟩ := h'
    rw [h.unique h']
  | fromHome h =>
    obtain - | ⟨h'⟩ := h'
    rw [h.unique h']
  | cross h₁ h₂ =>
    obtain - | - | ⟨h₁', h₂'⟩ := h'
    obtain rfl := h₁.unique h₁'
    rw [h₂.unique h₂']

end

theorem Routed.unique {source target : Currency} {way way' : Route}
    (h : Routed env b source target way) (h' : Routed env b source target way') : way' = way := by
  cases h with
  | toHome hs ht =>
    cases h' with
    | toHome => rfl
    | fromHome hs' => simp [hs] at hs'
    | cross _ ht' => simp [ht] at ht'
  | fromHome hs ht =>
    cases h' with
    | toHome hs' => simp [hs] at hs'
    | fromHome => rfl
    | cross hs' => simp [hs] at hs'
  | cross hs ht hh =>
    cases h' with
    | toHome _ ht' => simp [ht] at ht'
    | fromHome hs' => simp [hs] at hs'
    | cross _ _ hh' =>
      cases hh.symm.trans hh'
      rfl

theorem Accepted.unique {source target source' target' : Currency} {way way' : Route}
    (h : Accepted env b request source target way plans)
    (h' : Accepted env b request source' target' way' plans') : plans' = plans := by
  obtain ⟨rfl, rfl⟩ := h.sides.unique h'.sides
  obtain rfl := h.routed.unique h'.routed
  exact h.planned.unique h'.planned

theorem Accepted.congr {source target : Currency} {way : Route}
    (h : Accepted env b request source target way plans)
    (hregistry : env'.registry = env.registry) (hscale : env'.rateScale = env.rateScale)
    (hcurrencies : b'.currencies = b.currencies) (hrates : b'.rates = b.rates) :
    Accepted env' b' request source target way plans := by
  have hknown : knownCurrency env' b' = knownCurrency env b := by
    funext code
    simp only [knownCurrency, hregistry, Book.findCurrency, hcurrencies]
  have hflagged : flaggedCurrencies env' b' = flaggedCurrencies env b := by
    simp only [flaggedCurrencies, hregistry, Book.homeCurrencies, hcurrencies]
  have hfind : b'.findRateAsOf = b.findRateAsOf := by
    funext currency type date
    simp only [Book.findRateAsOf, hrates]
  refine ⟨h.differ, hknown ▸ h.knowsSource, hknown ▸ h.knowsTarget, h.amount, h.client, ?_, ?_⟩
  · cases h.routed with
    | toHome hs ht => exact .toHome hs ht
    | fromHome hs ht => exact .fromHome hs ht
    | cross hs ht hh => exact .cross hs ht (hflagged.trans hh)
  · rw [hscale]
    cases h.planned with
    | toHome hp => exact .toHome { hp with inForce := hfind ▸ hp.inForce }
    | fromHome hp => exact .fromHome { hp with inForce := hfind ▸ hp.inForce }
    | cross h₁ h₂ =>
      exact .cross { h₁ with inForce := hfind ▸ h₁.inForce }
        { h₂ with inForce := hfind ▸ h₂.inForce }

-- ---------------------------------------------------------------------------
-- Legs
-- ---------------------------------------------------------------------------

theorem Exchange.eq_of_untimed {e e' : Exchange} (h : e'.untimed = e.untimed) :
    e' = { e with createdAt := e'.createdAt } :=
  calc e' = { e'.untimed with createdAt := e'.createdAt } := rfl
    _ = { e.untimed with createdAt := e'.createdAt } := by rw [h]
    _ = { e with createdAt := e'.createdAt } := rfl

section

variable {leg leg' : Exchange} {cashier : Cashier} {instant instant' : Instant} {sequence : Nat}

theorem Posted.of_untimed {direction : Direction} {m : CashMovement}
    (hleg : leg'.untimed = leg.untimed) (h : Posted b leg' cashier instant direction sequence m) :
    Posted b leg cashier instant direction sequence m := by
  rw [Exchange.eq_of_untimed hleg] at h
  obtain ⟨ht, haccounts, hd, hc⟩ := h
  cases direction with
  | inward => exact ⟨ht, haccounts, hd, hc⟩
  | outward => exact ⟨ht, haccounts, hd, hc⟩

theorem Posted.unique {direction : Direction} {m m' : CashMovement}
    (h : Posted b leg cashier instant direction sequence m)
    (h' : Posted b leg cashier instant' direction sequence m') : m'.untimed = m.untimed := by
  obtain ⟨ht, ⟨vault, teller, hvault, hteller, haccounts⟩, hd, hc⟩ := h
  obtain ⟨ht', ⟨vault', teller', hvault', hteller', haccounts'⟩, hd', hc'⟩ := h'
  cases hvault.symm.trans hvault'
  cases hteller.symm.trans hteller'
  have htransaction : m'.transaction = m.transaction := ht'.trans ht.symm
  obtain ⟨hdebit, hcredit⟩ := Prod.mk.inj (haccounts'.trans haccounts.symm)
  rw [CashMovement.untimed, CashMovement.untimed, hd', hc', hdebit, hcredit, htransaction,
    Desk.journalEntry_untimed instant' instant, Desk.journalEntry_untimed instant' instant, ← hd,
    ← hc]

theorem PostingsOf.unique {p p' : LegPostings} (hleg : leg'.untimed = leg.untimed)
    (h : PostingsOf b leg instant sequence p) (h' : PostingsOf b leg' instant' sequence p') :
    p'.untimed = p.untimed := by
  obtain ⟨cashier, hcashier, hout, hin⟩ := h
  obtain ⟨cashier', hcashier', hout', hin'⟩ := h'
  have hstaff : leg'.user.staff = leg.user.staff := by rw [Exchange.eq_of_untimed hleg]
  rw [hstaff] at hcashier'
  cases hcashier.symm.trans hcashier'
  rw [LegPostings.untimed, LegPostings.untimed, hout.unique (hout'.of_untimed hleg),
    hin.unique (hin'.of_untimed hleg)]

end

theorem Written.of_request {number sequence : Nat}
    (h : Written b request number sequence plans legs) (huser : request'.user = request.user)
    (hclient : request'.client = request.client) (hdate : request'.date = request.date) :
    Written b request' number sequence plans legs := by
  induction h with
  | nil => exact .nil
  | cons record posted _ ih =>
    refine .cons ?_ posted ih
    rw [record, Desk.PlannedLeg.record, Desk.PlannedLeg.record, huser, hclient, hdate]

theorem Written.unique {number sequence : Nat}
    (h : Written b request number sequence plans legs)
    (h' : Written b request number sequence plans legs') :
    legs'.map (·.untimed) = legs.map (·.untimed) := by
  induction h generalizing legs' with
  | nil => rw [h'.nil_inv]
  | @cons _ _ _ leg _ _ _ record posted _ ih =>
    obtain ⟨leg', rest', _, rfl, record', posted', hrest'⟩ := h'.cons_inv
    have hexchange : leg'.exchange.untimed = leg.exchange.untimed := by
      rw [record, record']
      rfl
    rw [List.map_cons, List.map_cons, ih hrest', ExecutedLeg.untimed, ExecutedLeg.untimed,
      hexchange, posted.unique hexchange posted']

theorem Committed.of_request (h : Committed request plans legs s t)
    (huser : request'.user = request.user) (hclient : request'.client = request.client)
    (hdate : request'.date = request.date) : Committed request' plans legs s t :=
  { h with written := h.written.of_request huser hclient hdate }

theorem Committed.unique (hbook : s'.book = s.book) (hsequence : s'.sequence = s.sequence)
    (h : Committed request plans legs s t) (h' : Committed request plans legs' s' t') :
    legs'.map (·.untimed) = legs.map (·.untimed) ∧ t'.book.untimed = t.book.untimed ∧
      t'.sequence = t.sequence := by
  have hwritten := h'.written
  rw [hbook, hsequence] at hwritten
  have hlegs := h.written.unique hwritten
  have hlength : legs'.length = legs.length := by simpa using congrArg List.length hlegs
  refine ⟨hlegs, ?_, ?_⟩
  · rw [h'.book, h.book, hbook, Book.withLegs_untimed, Book.withLegs_untimed, hlegs]
  · rw [h'.sequence, h.sequence, hsequence, hlength]

/-- Two exchanges of one request that succeed from one book and one number of the
sequence leave the same behind, whatever clocks and ways of committing there are
and whichever calls fail. -/
theorem Desk.execute_untimed (hbook : s'.book = s.book) (hsequence : s'.sequence = s.sequence)
    (hregistry : env'.registry = env.registry) (hscale : env'.rateScale = env.rateScale)
    (h : execute request env s = (.ok legs, t)) (h' : execute request env' s' = (.ok legs', t')) :
    legs'.map (·.untimed) = legs.map (·.untimed) ∧ t'.book.untimed = t.book.untimed ∧
      t'.sequence = t.sequence := by
  obtain ⟨_, _, _, _, haccepted, hcommitted⟩ := (execute_spec request).ok h
  obtain ⟨_, _, _, _, haccepted', hcommitted'⟩ := (execute_spec request).ok h'
  replace haccepted := haccepted.congr hregistry hscale rfl rfl
  rw [hbook] at haccepted'
  obtain rfl := haccepted.unique haccepted'
  exact hcommitted.unique hbook hsequence hcommitted'

end ExchangeDesk
