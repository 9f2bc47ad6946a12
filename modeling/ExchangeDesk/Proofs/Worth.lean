import Mathlib.Data.List.Induction
import ExchangeDesk.Proofs.Conversion
import ExchangeDesk.Proofs.Ledger
import ExchangeDesk.Proofs.Rates
import ExchangeDesk.Proofs.Reachable

/-!
# Legs that are worth nothing

A request and a correction have to name positive amounts, but the amount that a
leg takes is computed and not checked again. All records of a run are positive
exactly if no conversion loses its amount in rounding (`run_worthy_iff`).
-/

namespace ExchangeDesk

variable {env : Environment} {s s' : Session} {b b' : Book} {request : ExchangeRequest}
  {scale number sequence : Nat} {amount : Decimal} {plans rest : List PlannedLeg}
  {legs : List ExecutedLeg}

-- ---------------------------------------------------------------------------
-- Records that are worth something
-- ---------------------------------------------------------------------------

def Exchange.Worthy (e : Exchange) : Prop :=
  e.amountGiven.isPositive = true ∧ e.amountTaken.isPositive = true

/-- All amounts of a book are positive. -/
structure Book.Worthy (b : Book) : Prop where
  exchanges : ∀ e ∈ b.exchanges, e.Worthy
  transactions : ∀ t ∈ b.transactions, t.amount.isPositive = true
  journal : ∀ j ∈ b.journal, j.amount.isPositive = true

/-- The amount converts to zero at the rate. -/
def Rate.Loses (scale : Nat) (rate : Rate) (amount : Decimal) : Prop :=
  (rate.type = .buying ∧ amount.LostInProduct rate.amount) ∨
    (rate.type = .selling ∧ Decimal.LostInQuotient scale amount rate.amount)

instance (scale : Nat) (rate : Rate) (amount : Decimal) : Decidable (rate.Loses scale amount) :=
  inferInstanceAs (Decidable (_ ∨ _))

/-- The amount given converts to zero at the rate of the record. -/
def Exchange.Worthless (scale : Nat) (b : Book) (e : Exchange) : Prop :=
  ∃ rate ∈ b.findRate e.rate, rate.Loses scale e.amountGiven

instance (scale : Nat) (b : Book) (e : Exchange) : Decidable (e.Worthless scale b) :=
  inferInstanceAs (Decidable (∃ rate ∈ b.findRate e.rate, rate.Loses scale e.amountGiven))

-- ---------------------------------------------------------------------------
-- Planned legs
-- ---------------------------------------------------------------------------

/-- Legs that hand an amount on: each takes a positive amount exactly if its rate does not convert
the amount given to zero. -/
inductive Passes (scale : Nat) (b : Book) : Decimal → List PlannedLeg → Prop
  | nil {amount : Decimal} : Passes scale b amount []
  | cons {amount : Decimal} {p : PlannedLeg} {plans : List PlannedLeg}
      (given : p.amountGiven = amount) (stored : p.rate ∈ b.rates)
      (left : amount.isPositive = true →
        (p.amountTaken.isPositive = true ↔ ¬ p.rate.Loses scale amount))
      (next : Passes scale b p.amountTaken plans) : Passes scale b amount (p :: plans)

namespace Passes

theorem of_append (h : Passes scale b amount (plans ++ rest)) : Passes scale b amount plans := by
  induction plans generalizing amount with
  | nil => exact .nil
  | cons p plans ih =>
    obtain - | ⟨hgiven, hstored, hleft, hnext⟩ := h
    exact .cons hgiven hstored hleft (ih hnext)

theorem stored (h : Passes scale b amount plans) : ∀ p ∈ plans, p.rate ∈ b.rates := by
  induction h with
  | nil => simp
  | cons _ hstored _ _ ih => exact List.forall_mem_cons.mpr ⟨hstored, ih⟩

theorem worthy_iff (h : Passes scale b amount plans) (ha : amount.isPositive = true) :
    (∀ p ∈ plans, p.amountGiven.isPositive = true ∧ p.amountTaken.isPositive = true) ↔
      ∀ p ∈ plans, ¬ p.rate.Loses scale p.amountGiven := by
  induction h with
  | nil => simp
  | cons hgiven _ hleft _ ih =>
    rw [List.forall_mem_cons, List.forall_mem_cons, hgiven]
    -- `ih` needs a positive amount taken, which both sides give for the first leg
    constructor
    · rintro ⟨⟨-, htaken⟩, hrest⟩
      exact ⟨(hleft ha).mp htaken, (ih htaken).mp hrest⟩
    · rintro ⟨hkeeps, hrest⟩
      have htaken := (hleft ha).mpr hkeeps
      exact ⟨⟨ha, htaken⟩, (ih htaken).mpr hrest⟩

end Passes

theorem PlannedLeg.IntoHome.passes {p : PlannedLeg} {date : Date} {source home : CurrencyCode}
    (hb : b.Sound) (h : p.IntoHome b date source home amount)
    (hnext : Passes scale b p.amountTaken plans) : Passes scale b amount (p :: plans) := by
  have hforce := Book.findRateAsOf_inForce hb.rateIds h.inForce
  refine .cons h.amountGiven hforce.stored (fun ha => ?_) hnext
  rw [convertToHome_isPositive ha h.converted]
  simp [Rate.Loses, hforce.hasType]

theorem PlannedLeg.OutOfHome.passes {p : PlannedLeg} {date : Date} {home target : CurrencyCode}
    (hb : b.Sound) (h : p.OutOfHome scale b date home target amount)
    (hnext : Passes scale b p.amountTaken plans) : Passes scale b amount (p :: plans) := by
  have hforce := Book.findRateAsOf_inForce hb.rateIds h.inForce
  refine .cons h.amountGiven hforce.stored (fun ha => ?_) hnext
  rw [convertFromHome_isPositive ha h.converted]
  simp [Rate.Loses, hforce.hasType]

theorem Planned.passes {date : Date} {source target : CurrencyCode} {way : Route} (hb : b.Sound)
    (h : Planned scale b date source target amount way plans) : Passes scale b amount plans := by
  cases h with
  | toHome h => exact h.passes hb .nil
  | fromHome h => exact h.passes hb .nil
  | cross h₁ h₂ => exact h₁.passes hb (h₂.passes hb .nil)

-- ---------------------------------------------------------------------------
-- Committed legs
-- ---------------------------------------------------------------------------

theorem Written.forall_iff {P : Exchange → Prop} {Q : PlannedLeg → Prop}
    (h : Written b request number sequence plans legs)
    (hiff : ∀ p ∈ plans, ∀ now id, P ⟨Desk.PlannedLeg.record p request now, id⟩ ↔ Q p) :
    (∀ leg ∈ legs, P leg.exchange) ↔ ∀ p ∈ plans, Q p := by
  induction h with
  | nil => simp
  | cons record _ _ ih =>
    rw [List.forall_mem_cons, List.forall_mem_cons, record, hiff _ List.mem_cons_self,
      ih fun p hp => hiff p (List.mem_cons_of_mem _ hp)]

theorem Written.worthy_iff (hb : b.Sound) (h : Written b request number sequence plans legs)
    (hp : Passes scale b amount plans) (ha : amount.isPositive = true) :
    (∀ leg ∈ legs, leg.exchange.Worthy) ↔ ∀ leg ∈ legs, ¬ leg.exchange.Worthless scale b := by
  have hworthless : ∀ p ∈ plans, ∀ now id,
      ¬ Exchange.Worthless scale b ⟨Desk.PlannedLeg.record p request now, id⟩ ↔
        ¬ p.rate.Loses scale p.amountGiven := by
    intro p hmem now id
    have hfound := hb.findRate_eq (hp.stored p hmem)
    simp [Exchange.Worthless, Desk.PlannedLeg.record, hfound]
  have hworthy := h.forall_iff (P := Exchange.Worthy)
    (Q := fun p => p.amountGiven.isPositive = true ∧ p.amountTaken.isPositive = true)
    fun p _ now id => Iff.rfl
  rw [hworthy, h.forall_iff (P := fun e => ¬ e.Worthless scale b) hworthless]
  exact hp.worthy_iff ha

theorem Settles.worthy {e : Exchange} {direction : Direction} {m : CashMovement}
    (h : Settles b e direction m) (he : e.Worthy) : m.transaction.amount.isPositive = true ∧
      m.debit.amount.isPositive = true ∧ m.credit.amount.isPositive = true := by
  have hmoved : m.transaction.amount.isPositive = true := by
    rw [h.transaction.2.1]
    cases direction with
    | inward => exact he.2
    | outward => exact he.1
  have hdebit : m.debit.amount.isPositive = true := by rwa [h.entries.1]
  refine ⟨hmoved, hdebit, ?_⟩
  rw [h.sides.2]
  exact hdebit

theorem Book.Posts.worthy (hw : b.Worthy) (h : b.Posts b' legs)
    (hlegs : ∀ leg ∈ legs, leg.exchange.Worthy) (he : ∀ e ∈ b'.exchanges, e.Worthy) :
    b'.Worthy := by
  have hmoved : ∀ m ∈ legs.flatMap (·.postings.movements), m.transaction.amount.isPositive = true ∧
      m.debit.amount.isPositive = true ∧ m.credit.amount.isPositive = true := by
    intro m hm
    obtain ⟨leg, hleg, direction, hsettles⟩ := h.movement m hm
    exact hsettles.worthy (hlegs leg hleg)
  refine ⟨he, fun t ht => ?_, fun j hj => ?_⟩
  · rw [h.transactions] at ht
    rcases List.mem_append.mp ht with ht | ht
    · exact hw.transactions t ht
    · obtain ⟨m, hm, rfl⟩ := List.mem_map.mp ht
      exact (hmoved m hm).1
  · rw [h.journal] at hj
    rcases List.mem_append.mp hj with hj | hj
    · exact hw.journal j hj
    · obtain ⟨m, hm, hj⟩ := List.mem_flatMap.mp hj
      simp only [List.mem_cons, List.not_mem_nil, or_false] at hj
      rcases hj with rfl | rfl
      · exact (hmoved m hm).2.1
      · exact (hmoved m hm).2.2

-- ---------------------------------------------------------------------------
-- Corrections
-- ---------------------------------------------------------------------------

def ExchangeChange.Positive : ExchangeChange → Prop
  | .amountGiven value | .amountTaken value => value.isPositive = true
  | _ => True

theorem ExchangeChange.Passed.positive {c : ExchangeChange} (h : c.Passed) : c.Positive := by
  cases c with
  | amountGiven value => exact checkPositive_ok h
  | amountTaken value => exact checkPositive_ok h
  | rate => trivial
  | currencyFrom => trivial
  | currencyTo => trivial
  | clientId => trivial
  | clientName => trivial
  | date => trivial

namespace Exchange

variable {e next : Exchange} {changes : ExchangeChanges} {applied : List ExchangeChange}

theorem set_worthy {c : ExchangeChange} (he : e.Worthy) (hc : c.Positive) : (e.set c).Worthy := by
  cases c with
  | amountGiven value => exact ⟨hc, he.2⟩
  | amountTaken value => exact ⟨he.1, hc⟩
  | rate => exact he
  | currencyFrom => exact he
  | currencyTo => exact he
  | clientId => exact he
  | clientName => exact he
  | date => exact he

theorem apply_worthy (he : e.Worthy) (h : e.apply changes = .ok (next, applied)) :
    next.Worthy := by
  obtain ⟨hchanges, rfl, -⟩ := apply_ok h
  exact replay_invariant he fun _ c hc he => set_worthy he (changesOf_passed hchanges c hc).positive

end Exchange

-- ---------------------------------------------------------------------------
-- Runs
-- ---------------------------------------------------------------------------

/-- One operation keeps all amounts positive exactly if it commits no leg that is `Worthless`. -/
theorem Effect.worthy_iff (hb : s.book.Sound) (hw : s.book.Worthy) (h : Effect env s s') :
    s'.book.Worthy ↔
      ∀ e ∈ s.book.newExchanges s'.book, ¬ e.Worthless env.rateScale s.book := by
  have hsetup := h.setup
  rcases h.quiet_or_exchanged with hquiet |
    ⟨_, _, _, _, _, _, legs, _, haccepted, hcommitted, hdrawn, -⟩
  · have hposts : s.book.Posts s'.book [] := .of_ledger hquiet.transactions hquiet.journal hsetup
    rw [hquiet.newExchanges]
    refine iff_of_true (hposts.worthy hw (by simp) fun e he => ?_) (by simp)
    rcases hquiet.exchanges e he with he | ⟨_, _, current, _, hcorrection⟩
    · exact hw.exchanges e he
    · have hcurrent := hw.exchanges current (List.mem_of_find?_eq_some hcorrection.found)
      exact Exchange.apply_worthy hcurrent hcorrection.applies
  · have hposts := hcommitted.posts hdrawn
    have hpasses := (haccepted.planned.passes hb).of_append
    have hlegs := hcommitted.written.worthy_iff hb hpasses haccepted.amount
    rw [hcommitted.newExchanges hdrawn, List.forall_mem_map, ← hlegs]
    obtain ⟨n, -, hbook⟩ := hdrawn
    have hexchanges : s'.book.exchanges = s.book.exchanges ++ legs.map (·.exchange) := by
      rw [hbook, hcommitted.book]
      rfl
    constructor
    · intro hw' leg hleg
      refine hw'.exchanges _ ?_
      rw [hexchanges]
      exact List.mem_append_right _ (List.mem_map_of_mem hleg)
    · intro hworthy
      refine hposts.worthy hw hworthy fun e he => ?_
      rw [hexchanges] at he
      rcases List.mem_append.mp he with he | he
      · exact hw.exchanges e he
      · obtain ⟨leg, hleg, rfl⟩ := List.mem_map.mp he
        exact hworthy leg hleg

/-- Every book of a run holds positive amounts only (`Worthy`) exactly if the first one does and no
leg is committed whose conversion rounds to zero (`Worthless`). -/
theorem run_worthy_iff (hb : Reachable s.book) (tasks : List (Environment × Operation)) :
    (∀ past, past <+: tasks → (run past s).book.Worthy) ↔
      s.book.Worthy ∧ ∀ past env op, past ++ [(env, op)] <+: tasks →
        ∀ e ∈ (run past s).book.newExchanges (run (past ++ [(env, op)]) s).book,
          ¬ e.Worthless env.rateScale (run past s).book := by
  have hstep (past : List (Environment × Operation)) (env : Environment) (op : Operation)
      (hw : (run past s).book.Worthy) := Effect.worthy_iff (hb.run past).sound hw
        (op.after_effect env (run past s))
  constructor
  · intro h
    refine ⟨h [] List.nil_prefix, fun past env op hpast => ?_⟩
    have hbefore := h past ((List.prefix_append ..).trans hpast)
    have hafter := h _ hpast
    rw [run_append] at hafter ⊢
    exact (hstep past env op hbefore).mp hafter
  · rintro ⟨hstart, h⟩ past
    -- from the end: the last operation of a beginning is the one that may spoil it
    induction past using List.reverseRecOn with
    | nil => exact fun _ => hstart
    | append_singleton past task ih =>
      intro hpast
      obtain ⟨env, op⟩ := task
      have hbefore := ih ((List.prefix_append ..).trans hpast)
      have hkept := h past env op hpast
      rw [run_append] at hkept ⊢
      exact (hstep past env op hbefore).mpr hkept

def crumb : Operation :=
  .execute { currencyFrom := ⟨"UGX"⟩, currencyTo := ⟨"USD"⟩
             amount := { negative := false, mantissa := 1, scale := 3 }
             date := openingDay, user := ⟨⟨1⟩, ⟨7⟩⟩ }

theorem run_worthy_iff_crumb :
    Reachable smallBook ∧ smallBook.Worthy ∧
      (run [({}, crumb)] { book := smallBook }).book.exchanges.map (·.amountTaken.text) =
        ["0.000000"] ∧
      ¬ ∀ past, past <+: [({}, crumb)] → (run past { book := smallBook }).book.Worthy := by
  have hreachable : Reachable smallBook := .of_snapshot smallBook_loaded
  obtain ⟨he, ht, hj⟩ := Book.ofSnapshot_unused smallBook_loaded
  refine ⟨hreachable, ⟨by simp [he], by simp [ht], by simp [hj]⟩, by decide +kernel, ?_⟩
  rw [run_worthy_iff (s := { book := smallBook }) hreachable]
  rintro ⟨-, h⟩
  have hlost : ∃ e ∈ smallBook.newExchanges (run [({}, crumb)] { book := smallBook }).book,
      e.Worthless rateScale smallBook := by decide +kernel
  obtain ⟨e, he, hworthless⟩ := hlost
  exact h [] {} crumb (List.prefix_refl _) e he hworthless

end ExchangeDesk
