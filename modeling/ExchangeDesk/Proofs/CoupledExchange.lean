import ExchangeDesk.Proofs.Coupling
import ExchangeDesk.Proofs.Planning
import Mathlib.Data.List.Forall2

/-!
# Two exchanges side by side

Two exchanges are made for one request, but for its amount. They are coupled if what they look
up before the first write is (`Coupling.Preparation`), and if what they write is
(`Coupling.Settlement`): this is the one walk through an exchange for all couplings
(`execute_couples`).
-/

namespace ExchangeDesk

open ExchangeDesk.Action

variable {C : Coupling} {request : ExchangeRequest} {amount amount' : Decimal} {date : Date}

-- ---------------------------------------------------------------------------
-- What is asked of a coupling
-- ---------------------------------------------------------------------------

/-- The code is one of the two sides in its normal form. -/
def ExchangeRequest.Names (request : ExchangeRequest) (code : CurrencyCode) : Prop :=
  CurrencyCode.parse request.currencyFrom.text = .ok code ∨
    CurrencyCode.parse request.currencyTo.text = .ok code

def Coupling.Finds (C : Coupling) (written : CurrencyCode) (c : Currency) : Prop :=
  ∃ s s' code, C.Related s s' ∧ CurrencyCode.parse written.text = .ok code ∧
    knownCurrency C.left s.book code = some c

/-- Up to the first write the two runs find the same currencies and plan legs that belong
together. Asked is only what the exchange asks: for home currencies if both sides have the home
flag or neither has it, and for the rates of sides without it. -/
structure Coupling.Preparation (C : Coupling) (request : ExchangeRequest) (amount : Decimal)
    (Plans : PlannedLeg → PlannedLeg → Prop) : Prop where
  positive : C.Couples (ofExcept (checkPositive .amount request.amount))
    (ofExcept (checkPositive .amount amount)) Eq
  noted (text : Decimal → String) :
    C.Lines ⟨.debug, .engine, text request.amount⟩ ⟨.debug, .engine, text amount⟩
  known {code : CurrencyCode} : request.Names code →
    C.right.registry.find? (·.code = code) = C.left.registry.find? (·.code = code)
  homes {source target : Currency} : C.Finds request.currencyFrom source →
    C.Finds request.currencyTo target → source.isHome = target.isHome →
    C.right.registry.filter (·.isHome) = C.left.registry.filter (·.isHome)
  planned {source target : Currency} {way : Route} : C.Finds request.currencyFrom source →
    C.Finds request.currencyTo target → (way ≠ .fromHome → source.isHome = false) →
    (way ≠ .toHome → target.isHome = false) →
    C.Couples (Desk.plan way source.code target.code request.amount request.date)
      (Desk.plan way source.code target.code amount request.date) (List.Forall₂ Plans)

def Exchange.cash (e : Exchange) : Direction → Decimal × CurrencyCode
  | .outward => (e.amountGiven, e.currencyFrom)
  | .inward => (e.amountTaken, e.currencyTo)

/-- The movement for which both accounts and a number of the sequence are found. -/
def Exchange.drafted (e : Exchange) (cashier : Cashier) (direction : Direction) (now : Instant)
    (vault teller : GlAccountId) (n : Nat) : CashMovement :=
  let (debit, credit) := match direction with
    | .inward => (teller, vault)
    | .outward => (vault, teller)
  let transaction := Desk.cashTransaction e cashier direction (e.cash direction).1
    (e.cash direction).2
  let entry := Desk.journalEntry e cashier transaction
    (.generate now e.user.user cashier.office n)
  { transaction, debit := entry .debit debit, credit := entry .credit credit }

/-- How what two runs write belongs together, by the times at which they write it, and that
each of their calls keeps it so. -/
structure Coupling.Settlement (C : Coupling) (request : ExchangeRequest) where
  Plans : PlannedLeg → PlannedLeg → Prop
  Times : Instant → Instant → Prop
  Numbers : Nat → Nat → Prop
  Records (now now' : Instant) : Exchange → Exchange → Prop
  Movements (now now' : Instant) : CashMovement → CashMovement → Prop
  begins : C.Couples Store.begin Store.begin Eq
  clock : C.Couples (readClock : Action DeskError Instant) readClock Times
  inserts {p p' : PlannedLeg} {now now' : Instant} : Plans p p' → Times now now' →
    C.Couples (Store.insertExchange (Desk.PlannedLeg.record p request now))
      (Store.insertExchange (Desk.PlannedLeg.record p' request now')) (Records now now')
  terms {now now' : Instant} {e e' : Exchange} : Records now now' e e' → e'.id = e.id ∧
    e'.user = e.user ∧ e'.currencyFrom = e.currencyFrom ∧ e'.currencyTo = e.currencyTo
  sequence : C.Couples (drawSequence : Action DeskError Nat) drawSequence Numbers
  drafts (m m' : CashMovement) :
    C.Couples (draftMovement m : Action DeskError Unit) (draftMovement m') Eq
  drafted {now now' : Instant} {e e' : Exchange} {n n' : Nat} (cashier : Cashier)
    (direction : Direction) (vault teller : GlAccountId) : Records now now' e e' →
    Numbers n n' → Movements now now' (e.drafted cashier direction now vault teller n)
      (e'.drafted cashier direction now' vault teller n')
  cash {now now' : Instant} {m m' : CashMovement} : Movements now now' m m' →
    C.Couples (Store.recordTransaction m.transaction) (Store.recordTransaction m'.transaction) Eq
  debit {now now' : Instant} {m m' : CashMovement} : Movements now now' m m' →
    C.Couples (Store.postEntry m.debit) (Store.postEntry m'.debit) Eq
  credit {now now' : Instant} {m m' : CashMovement} : Movements now now' m m' →
    C.Couples (Store.postEntry m.credit) (Store.postEntry m'.credit) Eq
  commits : C.Couples Store.commit Store.commit Eq
  committed {now now' : Instant} {e e' : Exchange} : Records now now' e e' →
    C.Lines ⟨.info, .engine, Desk.committedText e⟩ ⟨.info, .engine, Desk.committedText e'⟩

variable {w : C.Settlement request}

def Coupling.Settlement.Postings (w : C.Settlement request) (now now' : Instant)
    (p p' : LegPostings) : Prop :=
  w.Movements now now' p.outward p'.outward ∧ w.Movements now now' p.inward p'.inward

def Coupling.Settlement.Legs (w : C.Settlement request) (leg leg' : ExecutedLeg) : Prop :=
  ∃ now now', w.Times now now' ∧ w.Records now now' leg.exchange leg'.exchange ∧
    w.Postings now now' leg.postings leg'.postings

namespace Desk

-- ---------------------------------------------------------------------------
-- Up to the first write
-- ---------------------------------------------------------------------------

theorem requireCurrency_couples {code : CurrencyCode}
    (h : C.right.registry.find? (·.code = code) = C.left.registry.find? (·.code = code)) :
    C.Couples (requireCurrency code) (requireCurrency code) (Same fun c =>
      ∃ s s', C.Related s s' ∧ knownCurrency C.left s.book code = some c) := by
  refine (Store.findCurrency_couples h).concealing.known ?_
  rintro _ ⟨s, s', hs, rfl⟩
  exact Coupling.Couples.orFail.mono fun _ _ ⟨heq, hfound⟩ => ⟨heq, s, s', hs, hfound⟩

theorem homeCurrency_couples
    (h : C.right.registry.filter (·.isHome) = C.left.registry.filter (·.isHome)) :
    C.Couples homeCurrency homeCurrency Eq := by
  refine (Store.homeCurrencies_couples h).concealing.same fun homes => ?_
  split
  · exact .pure rfl
  · exact .fail

theorem route_couples {source target : Currency} (h : source.isHome = target.isHome →
      C.right.registry.filter (·.isHome) = C.left.registry.filter (·.isHome)) :
    C.Couples (route source target) (route source target) (Same fun way =>
      (way ≠ .fromHome → source.isHome = false) ∧ (way ≠ .toHome → target.isHome = false)) := by
  unfold route
  split
  · next hs ht => exact .pure ⟨rfl, fun _ => hs, fun hne => absurd rfl hne⟩
  · next hs ht => exact .pure ⟨rfl, fun hne => absurd rfl hne, fun _ => ht⟩
  · next hs ht =>
    refine (homeCurrency_couples (h (hs.trans ht.symm))).same fun home => ?_
    exact .pure ⟨rfl, fun _ => hs, fun _ => ht⟩
  · next hs ht => exact (homeCurrency_couples (h (hs.trans ht.symm))).same fun home => .fail

theorem resolveAsOf_couples {currency : CurrencyCode} {type : RateType}
    (h : ∀ s s', C.Related s s' →
      s'.book.findRateAsOf currency type date = s.book.findRateAsOf currency type date) :
    C.Couples (resolveAsOf currency type date) (resolveAsOf currency type date) Eq := by
  refine (Store.findRateAsOf_couples h).concealing.same fun found => ?_
  cases found with
  | some rate => exact (Coupling.Couples.note (C.line _)).same fun _ => .pure rfl
  | none => exact .fail

section

variable {source home target : CurrencyCode} {A : Decimal → Decimal → Prop}

theorem planToHome_couples (hrate : ∀ s s', C.Related s s' →
      s'.book.findRateAsOf source .buying date = s.book.findRateAsOf source .buying date)
    (hconvert : ∀ rate, C.Couples (ofExcept (convertToHome amount rate))
      (ofExcept (convertToHome amount' rate)) A) :
    C.Couples (planToHome source home amount date) (planToHome source home amount' date)
      fun p p' => ∃ rate taken taken', A taken taken' ∧
        p = ⟨rate, source, home, amount, taken⟩ ∧ p' = ⟨rate, source, home, amount', taken'⟩ :=
  (resolveAsOf_couples hrate).same fun rate => (hconvert rate).bind fun taken taken' h =>
    .pure ⟨rate, taken, taken', h, rfl, rfl⟩

theorem planFromHome_couples (hrate : ∀ s s', C.Related s s' →
      s'.book.findRateAsOf target .selling date = s.book.findRateAsOf target .selling date)
    (hconvert : ∀ rate, C.Couples (ofExcept (convertFromHome C.left.rateScale amount rate))
      (ofExcept (convertFromHome C.left.rateScale amount' rate)) A) :
    C.Couples (planFromHome home target amount date) (planFromHome home target amount' date)
      fun p p' => ∃ rate taken taken', A taken taken' ∧
        p = ⟨rate, home, target, amount, taken⟩ ∧ p' = ⟨rate, home, target, amount', taken'⟩ := by
  refine (resolveAsOf_couples hrate).same fun rate => ?_
  refine Coupling.Couples.environment.bind ?_
  rintro _ _ ⟨rfl, rfl⟩
  rw [C.rateScale]
  exact (hconvert rate).bind fun taken taken' h => .pure ⟨rate, taken, taken', h, rfl, rfl⟩

theorem plan_couples {Plans : PlannedLeg → PlannedLeg → Prop} {way : Route}
    (hamount : A amount amount')
    (hbuying : way ≠ .fromHome → ∀ s s', C.Related s s' →
      s'.book.findRateAsOf source .buying date = s.book.findRateAsOf source .buying date)
    (hselling : way ≠ .toHome → ∀ s s', C.Related s s' →
      s'.book.findRateAsOf target .selling date = s.book.findRateAsOf target .selling date)
    (htoHome : ∀ rate, C.Couples (ofExcept (convertToHome amount rate))
      (ofExcept (convertToHome amount' rate)) A)
    (hfromHome : ∀ a a' rate, A a a' → C.Couples (ofExcept (convertFromHome C.left.rateScale a rate))
      (ofExcept (convertFromHome C.left.rateScale a' rate)) A)
    (hplans : ∀ rate from' to' a a' t t', A a a' → A t t' →
      Plans ⟨rate, from', to', a, t⟩ ⟨rate, from', to', a', t'⟩) :
    C.Couples (plan way source target amount date) (plan way source target amount' date)
      (List.Forall₂ Plans) := by
  cases way with
  | toHome =>
    refine (planToHome_couples (hbuying (by simp)) htoHome).bind ?_
    rintro _ _ ⟨rate, taken, taken', htaken, rfl, rfl⟩
    exact .pure (.cons (hplans _ _ _ _ _ _ _ hamount htaken) .nil)
  | fromHome =>
    refine (planFromHome_couples (hselling (by simp)) fun rate => hfromHome _ _ rate hamount).bind ?_
    rintro _ _ ⟨rate, taken, taken', htaken, rfl, rfl⟩
    exact .pure (.cons (hplans _ _ _ _ _ _ _ hamount htaken) .nil)
  | cross home =>
    refine (planToHome_couples (hbuying (by simp)) htoHome).bind ?_
    rintro _ _ ⟨first, taken, taken', htaken, rfl, rfl⟩
    refine (planFromHome_couples (hselling (by simp)) fun rate => hfromHome _ _ rate htaken).bind ?_
    rintro _ _ ⟨second, last, last', hlast, rfl, rfl⟩
    exact .pure (.cons (hplans _ _ _ _ _ _ _ hamount htaken)
      (.cons (hplans _ _ _ _ _ _ _ htaken hlast) .nil))

theorem plan_couples_same {way : Route}
    (hbuying : way ≠ .fromHome → ∀ s s', C.Related s s' →
      s'.book.findRateAsOf source .buying date = s.book.findRateAsOf source .buying date)
    (hselling : way ≠ .toHome → ∀ s s', C.Related s s' →
      s'.book.findRateAsOf target .selling date = s.book.findRateAsOf target .selling date) :
    C.Couples (plan way source target amount date) (plan way source target amount date)
      (List.Forall₂ Eq) := by
  refine plan_couples (A := Eq) rfl hbuying hselling (fun _ => .ofExcept_same) ?_ ?_
  · rintro a _ rate rfl
    exact .ofExcept_same
  · rintro rate from' to' a _ t _ rfl rfl
    rfl

end

theorem prepare_couples {Plans : PlannedLeg → PlannedLeg → Prop}
    (h : C.Preparation request amount Plans) :
    C.Couples (prepare request) (prepare { request with amount }) (List.Forall₂ Plans) := by
  unfold prepare
  split
  · exact .fail
  -- the request by itself is checked before anything is looked up
  refine Coupling.Couples.ofExcept_known.known fun sourceCode hsource => ?_
  refine Coupling.Couples.ofExcept_known.known fun targetCode htarget => ?_
  refine h.positive.same fun _ => ?_
  refine Coupling.Couples.ofExcept_same.same fun _ => ?_
  refine (requireCurrency_couples (h.known (.inl hsource))).known fun source hfound => ?_
  refine (requireCurrency_couples (h.known (.inr htarget))).known fun target hfound' => ?_
  have hsource : C.Finds request.currencyFrom source := by
    obtain ⟨s, s', hs, hknown⟩ := hfound
    exact ⟨s, s', _, hs, hsource, hknown⟩
  have htarget : C.Finds request.currencyTo target := by
    obtain ⟨s, s', hs, hknown⟩ := hfound'
    exact ⟨s, s', _, hs, htarget, hknown⟩
  refine (route_couples (h.homes hsource htarget)).known fun way ⟨hfrom, hto⟩ => ?_
  refine (Coupling.Couples.note (h.noted fun amount =>
    s!"exchanging {amount} {source.code} into {target.code} on {request.date}: " ++
      way.text)).same fun _ => ?_
  exact h.planned hsource htarget hfrom hto

-- ---------------------------------------------------------------------------
-- Writing legs
-- ---------------------------------------------------------------------------

theorem findAccount_couples (activity : Activity) (currency : CurrencyCode) :
    C.Couples (findAccount activity currency) (findAccount activity currency) Eq := by
  refine (Store.findAccount_couples activity currency).concealing.same fun found => ?_
  exact Coupling.Couples.orFail.known fun _ _ => .pure rfl

theorem movement_eq (e : Exchange) (cashier : Cashier) (direction : Direction) (now : Instant) :
    movement e cashier direction (e.cash direction).1 (e.cash direction).2 now = do
      let vault ← findAccount .cashAtMainVault (e.cash direction).2
      let teller ← findAccount .cashAtTeller (e.cash direction).2
      let n ← drawSequence
      draftMovement (e.drafted cashier direction now vault teller n)
      return e.drafted cashier direction now vault teller n := by
  cases direction <;> rfl

section

variable {e e' : Exchange} {now now' : Instant} {m m' : CashMovement}

theorem movement_couples (h : w.Records now now' e e') (cashier : Cashier)
    (direction : Direction) :
    C.Couples (movement e cashier direction (e.cash direction).1 (e.cash direction).2 now)
      (movement e' cashier direction (e'.cash direction).1 (e'.cash direction).2 now')
      (w.Movements now now') := by
  have hcurrency : (e'.cash direction).2 = (e.cash direction).2 := by
    obtain ⟨-, -, hfrom, hto⟩ := w.terms h
    cases direction with
    | inward => exact hto
    | outward => exact hfrom
  rw [movement_eq, movement_eq, hcurrency]
  refine (findAccount_couples _ _).same fun vault => ?_
  refine (findAccount_couples _ _).same fun teller => ?_
  refine w.sequence.bind fun n n' hn => ?_
  exact (w.drafts _ _).same fun _ => .pure (w.drafted cashier direction vault teller h hn)

theorem preparePostings_couples (h : w.Records now now' e e') :
    C.Couples (preparePostings e now) (preparePostings e' now') (w.Postings now now') := by
  obtain ⟨-, huser, -⟩ := w.terms h
  unfold preparePostings
  rw [huser]
  refine (Store.findCashier_couples _).concealing.same fun found => ?_
  refine Coupling.Couples.orFail.known fun cashier _ => ?_
  refine (movement_couples h cashier .outward).bind fun outward outward' hout => ?_
  refine (movement_couples h cashier .inward).bind fun inward inward' hin => ?_
  exact .pure ⟨hout, hin⟩

theorem recordMovement_couples (h : w.Movements now now' m m') :
    C.Couples (recordMovement m) (recordMovement m') Eq := by
  refine (w.cash h).concealing.same fun _ => ?_
  exact (w.debit h).concealing.same fun _ => (w.credit h).concealing

theorem postLeg_couples (h : w.Records now now' e e') :
    C.Couples (postLeg e now) (postLeg e' now') (w.Postings now now') := by
  refine (preparePostings_couples h).bind fun p p' ⟨hout, hin⟩ => ?_
  refine (recordMovement_couples hout).same fun _ => ?_
  exact (recordMovement_couples hin).same fun _ => .pure ⟨hout, hin⟩

theorem writeLeg_couples {p p' : PlannedLeg} (hp : w.Plans p p') (hnow : w.Times now now') :
    C.Couples (writeLeg request now p) (writeLeg { request with amount } now' p') w.Legs := by
  refine (w.inserts hp hnow).concealing.bind fun stored stored' hstored => ?_
  exact (postLeg_couples hstored).bind fun _ _ hpostings =>
    .pure ⟨now, now', hnow, hstored, hpostings⟩

end

variable {plans plans' : List PlannedLeg} {legs legs' done done' : List ExecutedLeg}

theorem writeLegs_couples (h : List.Forall₂ w.Plans plans plans') {now now' : Instant}
    (hnow : w.Times now now') :
    C.Couples (writeLegs request now plans) (writeLegs { request with amount } now' plans')
      (List.Forall₂ w.Legs) := by
  induction h with
  | nil => exact .pure .nil
  | cons hp _ ih =>
    refine (writeLeg_couples hp hnow).bind fun leg leg' hleg => ?_
    exact ih.bind fun legs legs' hlegs => .pure (.cons hleg hlegs)

theorem noteCommitted_couples (h : List.Forall₂ w.Legs legs legs') :
    C.Couples (noteCommitted legs) (noteCommitted legs') Eq := by
  induction h with
  | nil => exact .pure rfl
  | cons hleg _ ih =>
    obtain ⟨now, now', -, hrecord, -⟩ := hleg
    exact (Coupling.Couples.note (w.committed hrecord)).same fun _ => ih

theorem commitLegs_couples (h : List.Forall₂ w.Plans plans plans') :
    C.Couples (commitLegs request plans) (commitLegs { request with amount } plans')
      (List.Forall₂ w.Legs) := by
  refine w.begins.concealing.same fun _ => ?_
  refine w.clock.bind fun now now' hnow => ?_
  refine (writeLegs_couples h hnow).bind fun legs legs' hlegs => ?_
  refine w.commits.concealing.same fun _ => ?_
  exact (noteCommitted_couples hlegs).same fun _ => .pure hlegs

theorem strandedText_couples (h : List.Forall₂ w.Legs done done') (number total : Nat)
    (e : DeskError) : strandedText { request with amount } number total e done' =
      strandedText request number total e done := by
  have hids : done'.map (fun leg => toString leg.exchange.id) =
      done.map fun leg => toString leg.exchange.id := by
    induction h with
    | nil => rfl
    | cons hleg _ ih =>
      obtain ⟨_, _, -, hrecord, -⟩ := hleg
      rw [List.map_cons, List.map_cons, ih, (w.terms hrecord).1]
  unfold strandedText
  rw [hids]

/-- As many legs are committed in both runs, so both raise the alarm or neither does. -/
theorem commitEach_couples (h : List.Forall₂ w.Plans plans plans') (total : Nat)
    (hdone : List.Forall₂ w.Legs done done') :
    C.Couples (commitEach request total done plans)
      (commitEach { request with amount } total done' plans') (List.Forall₂ w.Legs) := by
  induction h generalizing done done' with
  | nil => exact .pure hdone
  | cons hp _ ih =>
    refine (Coupling.Couples.onError (commitLegs_couples (.cons hp .nil)) fun _ e => ?_).bind
      fun legs legs' hlegs => ih (List.rel_append hdone hlegs)
    have hempty : done'.isEmpty = done.isEmpty := by cases hdone <;> rfl
    rw [strandedText_couples hdone, hempty, hdone.length_eq]
    split
    · exact .pure rfl
    · exact .note (C.line _)

theorem settle_couples (h : List.Forall₂ w.Plans plans plans') :
    C.Couples (settle request plans) (settle { request with amount } plans')
      (List.Forall₂ w.Legs) := by
  refine Coupling.Couples.environment.bind ?_
  rintro _ _ ⟨rfl, rfl⟩
  rw [C.atomicity]
  cases C.left.atomicity with
  | allLegs => exact commitLegs_couples h
  | perLeg =>
    rw [h.length_eq]
    exact commitEach_couples h _ .nil

theorem execute_couples (w : C.Settlement request) (h : C.Preparation request amount w.Plans) :
    C.Couples (execute request) (execute { request with amount }) (List.Forall₂ w.Legs) := by
  rw [execute_eq, execute_eq]
  exact (prepare_couples h).bind fun plans plans' hplans => settle_couples hplans

end Desk
end ExchangeDesk
