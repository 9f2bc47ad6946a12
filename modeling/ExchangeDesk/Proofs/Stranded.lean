import ExchangeDesk.Desk.Fault
import ExchangeDesk.Proofs.Meaning

/-!
# Legs that stand alone

Leg by leg, an exchange that fails may leave its first leg in the book. It does
so only between two currencies that are not home currency, after both legs were
planned; that leg is complete, nothing of the second one is there, and one alarm
names it (`execute_error`). In all other cases the records are untouched and no
alarm is raised.
-/

namespace ExchangeDesk

open ExchangeDesk.Action

variable {env : Environment} {s s' : Session} {b : Book} {request : ExchangeRequest}
  {plans : List PlannedLeg} {legs : List ExecutedLeg} {leg : ExecutedLeg} {e : DeskError}

-- ---------------------------------------------------------------------------
-- The first leg of two
-- ---------------------------------------------------------------------------

/-- The first of two legs by way of the home currency, with all that belongs to
it. -/
structure FirstOfTwo (b : Book) (request : ExchangeRequest) (leg : ExecutedLeg) : Prop where
  crosses : ∃ source target home, CurrencyCode.parse request.currencyFrom.text = .ok source ∧
    CurrencyCode.parse request.currencyTo.text = .ok target ∧ b.homeCurrencies = [home] ∧
    source ≠ home.code ∧ target ≠ home.code ∧
    ToHome b request.date source home.code request.amount leg.exchange
  madeFor : leg.exchange.MadeFor request
  id : b.nextExchange ≤ leg.exchange.id.number
  outward : Settles b leg.exchange .outward leg.postings.outward
  inward : Settles b leg.exchange .inward leg.postings.inward
  balanced : leg.postings.isBalanced = true

theorem Planned.length_le {scale : Nat} {date : Date} {source target : CurrencyCode}
    {amount : Decimal} {way : Route} (h : Planned scale b date source target amount way plans) :
    plans.length ≤ 2 := by
  cases h with
  | toHome => exact Nat.le_succ 1
  | fromHome => exact Nat.le_succ 1
  | cross => exact Nat.le_refl 2

theorem Accepted.firstOfTwo {source target : Currency} {way : Route} {first second : PlannedLeg}
    {sequence : Nat} (hb : b.Sound) (hregistry : env.registry = [])
    (h : Accepted env b request source target way [first, second])
    (hwritten : Written b request b.nextExchange sequence [first] [leg]) :
    FirstOfTwo b request leg := by
  obtain ⟨hs, ht, hsource, htarget⟩ := h.currencies hregistry
  have hrouted := h.routed
  cases h.planned with
  | cross h₁ h₂ =>
    obtain ⟨home, hhome, rfl, hfrom, hto⟩ := hrouted.crosses hb hregistry hs ht
    have hmem := List.mem_singleton_self leg
    obtain ⟨_, _, hposted⟩ := hwritten.posted leg hmem
    obtain ⟨hout, hin⟩ := hposted.settles
    have hbalanced : leg.postings.isBalanced = true :=
      Bool.and_eq_true_iff.mpr ⟨hout.isBalanced, hin.isBalanced⟩
    have hmade := hwritten.madeFor leg hmem
    have hnumber := (hwritten.number_mem hmem).1
    obtain ⟨_, _, _, ⟨⟩, record, -, -⟩ := hwritten.cons_inv
    exact ⟨⟨_, _, home, hsource, htarget, hhome, hfrom, hto, h₁.toHome hb.rateIds record⟩, hmade,
      hnumber, hout, hin, hbalanced⟩

-- ---------------------------------------------------------------------------
-- What is left of a failed exchange
-- ---------------------------------------------------------------------------

def Exchange.strandedLine (leg : Exchange) (request : ExchangeRequest) (e : DeskError) : LogLine :=
  ⟨.error, .engine,
    s!"leg 2 of 2 for {request.currencyFrom} -> {request.currencyTo} failed " ++
      s!"({e.message}); committed exchange(s) " ++ toString leg.id ++
      " stand without their counter-leg"⟩

/-- The first leg came into the book, nothing else did, and an alarm tells so. -/
structure Stranded (request : ExchangeRequest) (leg : ExecutedLeg) (e : DeskError)
    (s s' : Session) : Prop where
  first : FirstOfTwo s.book request leg
  records : s'.book.toRecords = (s.book.withLegs [leg]).toRecords
  alarms : s'.alarms = s.alarms ++ [leg.exchange.strandedLine request e]

theorem Session.alarm_singleton : (s.alarm request 2 e [leg]).alarms =
    s.alarms ++ [leg.exchange.strandedLine request e] := by
  have hline : leg.exchange.strandedLine request e =
      ⟨.error, .engine, Desk.strandedText request 2 2 e [leg]⟩ := rfl
  rw [hline, alarms, alarm, if_neg (by simp), List.filter_append]
  rfl

/-- At most two legs are planned, so at most one is left behind. -/
theorem Desk.Interrupted.spares_or_stranded (hb : s.book.Sound) (hregistry : env.registry = [])
    (h : Interrupted env request e s s') :
    s.Spares s' ∨ ∃ leg, Stranded request leg e s s' := by
  obtain ⟨-, source, target, way, plans, haccepted, rfl, hcommitted, hspares, rfl⟩ := h
  rename_i taken rest failed legs t u
  have hlength := haccepted.planned.length_le
  rcases taken with - | ⟨first, - | ⟨_, _⟩⟩
  · obtain ⟨rfl, hnone⟩ := hcommitted.of_nil
    exact .inl (hnone.trans hspares)
  · obtain rfl : rest = [] := by simpa using hlength
    obtain ⟨leg, _, _, rfl, -, -, hnone⟩ := hcommitted.written.cons_inv
    obtain rfl := hnone.nil_inv
    refine .inr ⟨leg, haccepted.firstOfTwo hb hregistry hcommitted.written, ?_, ?_⟩
    · rw [Session.alarm_book, hspares.records, hcommitted.book]
    · rw [List.nil_append]
      refine (Session.alarm_singleton (s := u)).trans ?_
      rw [hspares.alarms, hcommitted.alarms]
  · simp at hlength

theorem Stranded.changed (h : Stranded request leg e s s') :
    s'.alarms ≠ s.alarms ∧ s'.book.toRecords ≠ s.book.toRecords := by
  refine ⟨?_, fun heq => ?_⟩
  · rw [h.alarms]
    simp
  · have hexchanges := congrArg Records.exchanges (h.records.symm.trans heq)
    simp [Book.withLegs] at hexchanges

namespace Desk

theorem execute_prepare_error (h : prepare request env s = (.error e, s')) :
    execute request env s = (.error e, s') := by
  rw [execute_eq]
  show Action.bind (prepare request) (settle request) env s = (.error e, s')
  rw [Action.bind, h]

/-- An exchange that fails leaves records and alarms as they were, or its first leg `Stranded`:
committed with its postings but without the second leg, and named in one alarm. So an alarm is
raised exactly if the records changed. A failure of `prepare` changes neither book nor alarms. -/
theorem execute_error (hb : Reachable s.book) (hregistry : env.registry = [])
    (h : execute request env s = (.error e, s')) :
    (s'.book.toRecords = s.book.toRecords ∧ s'.alarms = s.alarms ∨
      ∃ leg, Stranded request leg e s s') ∧
    (s'.alarms ≠ s.alarms ↔ s'.book.toRecords ≠ s.book.toRecords) ∧
    ∀ e₁ s₁, prepare request env s = (.error e₁, s₁) → s'.book = s.book ∧ s'.alarms = s.alarms := by
  have houtcome : s.Spares s' ∨ ∃ leg, Stranded request leg e s s' := by
    rcases (execute_spec request).error h with hspares | hinterrupted
    · exact .inl hspares
    · exact hinterrupted.spares_or_stranded hb.sound hregistry
  refine ⟨?_, ?_, fun e₁ s₁ hprepare => ?_⟩
  · rcases houtcome with hspares | hstranded
    · exact .inl ⟨hspares.records, hspares.alarms⟩
    · exact .inr hstranded
  · rcases houtcome with hspares | ⟨leg, hstranded⟩
    · simp [hspares.records, hspares.alarms]
    · exact iff_of_true hstranded.changed.1 hstranded.changed.2
  · have hsame := (execute_prepare_error hprepare).symm.trans h
    obtain ⟨-, rfl⟩ := Prod.mk.inj hsame
    have hagrees : s.Agrees s₁ := (prepare_reads request).error hprepare
    exact ⟨hagrees.book, hagrees.alarms⟩

def secondRefused : Environment :=
  { faults := Fault.schedule [⟨.insertExchange, 1, none, .unavailable "offline"⟩]
    atomicity := .perLeg }

theorem execute_error_secondRefused :
    Reachable smallBook ∧ ∃ e s' leg,
      execute smallRequest secondRefused { book := smallBook } = (.error e, s') ∧
      Stranded smallRequest leg e { book := smallBook } s' := by
  have hreachable : Reachable smallBook := .of_snapshot smallBook_loaded
  have hfails : (execute smallRequest secondRefused { book := smallBook }).1.isOk = false := by
    decide +kernel
  have hchanges : (execute smallRequest secondRefused { book := smallBook }).2.book.exchanges ≠
      smallBook.exchanges := by decide +kernel
  refine ⟨hreachable, ?_⟩
  rcases hrun : execute smallRequest secondRefused { book := smallBook } with ⟨e | legs, s'⟩
  · rw [hrun] at hchanges
    rcases (execute_error (s := { book := smallBook }) hreachable rfl hrun).1 with
      ⟨hrecords, -⟩ | ⟨leg, hstranded⟩
    · exact absurd (congrArg Records.exchanges hrecords) hchanges
    · exact ⟨e, s', leg, rfl, hstranded⟩
  · rw [hrun] at hfails
    cases hfails

end Desk
end ExchangeDesk
