import ExchangeDesk.Proofs.Beside
import ExchangeDesk.Proofs.Meaning
import ExchangeDesk.Proofs.TakenAmounts

/-!
# Smaller amounts

A conversion rounds to as many digits as fit, so a smaller amount may be rounded to more digits
than a larger one. The order is kept all the same (`convertToHome_mono`,
`convertFromHome_mono`). So an exchange of a smaller amount goes beside the one of a larger amount,
leg by leg and with amounts that are not larger, whichever calls fail and however legs are
committed (`execute_part`).
-/

namespace ExchangeDesk

open ExchangeDesk.Action

variable {env : Environment} {s t : Session} {scale : ℕ} {a b small large : Decimal}
  {rate low high : Rate} {request : ExchangeRequest}

-- ---------------------------------------------------------------------------
-- Conversions
-- ---------------------------------------------------------------------------

theorem convertToHome_mono (ha : 0 ≤ a.value) (hle : a ≤ b) (hlow : low.amount.isPositive = true)
    (hrates : low.amount ≤ high.amount) (h : convertToHome b high = .ok large) :
    ∃ small, convertToHome a low = .ok small ∧ small ≤ large := by
  obtain ⟨-, hmul⟩ := convertToHome_ok.mp h
  have hrounded := Decimal.mul_rounded b high.amount
  rw [hmul] at hrounded
  have hlarge := hrounded.fitted_of_some
  have hpositive := Decimal.isPositive_iff_value.mp hlow
  have hproducts : a.value * low.amount.value ≤ b.value * high.amount.value :=
    mul_le_mul (Decimal.le_iff_value.mp hle) (Decimal.le_iff_value.mp hrates) hpositive.le
      (ha.trans (Decimal.le_iff_value.mp hle))
  rcases convertToHome_cases a hlow with ⟨small, hok, hsmall⟩ | ⟨-, hoverflow⟩
  · exact ⟨small, hok, Decimal.le_iff_value.mpr (hsmall.mono hlarge hproducts)⟩
  · rw [abs_of_nonneg (by positivity)] at hoverflow
    exact absurd hlarge.fits (not_lt.mpr (hoverflow.trans (hproducts.trans (le_abs_self _))))

theorem convertFromHome_mono (ha : 0 ≤ a.value) (hle : a ≤ b)
    (hlow : low.amount.isPositive = true) (hrates : low.amount ≤ high.amount)
    (h : convertFromHome scale b low = .ok large) :
    ∃ small, convertFromHome scale a high = .ok small ∧ small ≤ large := by
  obtain ⟨quotient, -, hlarge, rfl⟩ := convertFromHome_taken h
  have hpositive := Decimal.isPositive_iff_value.mp hlow
  have hrates := Decimal.le_iff_value.mp hrates
  have hhigh := hpositive.trans_le hrates
  have hquotients : a.value / high.amount.value ≤ b.value / low.amount.value :=
    div_le_div₀ (ha.trans (Decimal.le_iff_value.mp hle)) (Decimal.le_iff_value.mp hle) hpositive
      hrates
  have hfits : |a.value / high.amount.value| < roundingLimit := by
    rw [abs_of_nonneg (by positivity)]
    exact (hquotients.trans (le_abs_self _)).trans_lt hlarge.fits
  obtain ⟨smaller, hsmall, hok⟩ :=
    convertFromHome_isOk scale (Decimal.isPositive_iff_value.mpr hhigh) hfits
  refine ⟨_, hok, Decimal.le_iff_value.mpr ?_⟩
  rw [Decimal.rescale_value (smaller.round_scale_le scale),
    Decimal.rescale_value (quotient.round_scale_le scale)]
  exact Decimal.round_mono (hsmall.mono hlarge hquotients) scale

theorem convertFromHome_nonneg (ha : 0 ≤ a.value) (h : convertFromHome scale a rate = .ok large) :
    0 ≤ large.value := by
  have hpositive := Decimal.isPositive_iff_value.mp (convertFromHome_ok.mp h).1
  obtain ⟨quotient, -, hfitted, rfl⟩ := convertFromHome_taken h
  rw [Decimal.rescale_value (quotient.round_scale_le scale)]
  exact Decimal.round_nonneg (hfitted.nonneg (by positivity)) scale

-- ---------------------------------------------------------------------------
-- Legs of smaller amounts
-- ---------------------------------------------------------------------------

/-- A part of an amount, from nothing up to all of it. -/
structure Decimal.PartOf (part whole : Decimal) : Prop where
  nonneg : 0 ≤ part.value
  le : part ≤ whole

structure PlannedLeg.PartOf (part whole : PlannedLeg) : Prop where
  terms : part = { whole with amountGiven := part.amountGiven, amountTaken := part.amountTaken }
  given : part.amountGiven.PartOf whole.amountGiven
  taken : part.amountTaken.PartOf whole.amountTaken

structure Exchange.PartOf (part whole : Exchange) : Prop where
  terms : part = { whole with amountGiven := part.amountGiven, amountTaken := part.amountTaken }
  given : part.amountGiven.PartOf whole.amountGiven
  taken : part.amountTaken.PartOf whole.amountTaken

def PartLegs (legs legs' : List ExecutedLeg) : Prop :=
  List.Forall₂ (fun leg leg' => leg'.exchange.PartOf leg.exchange) legs legs'

theorem PartLegs.last {legs legs' : List ExecutedLeg} (h : PartLegs legs legs') {leg : ExecutedLeg}
    (hlast : legs.getLast? = some leg) :
    ∃ leg', legs'.getLast? = some leg' ∧ leg'.exchange.PartOf leg.exchange := by
  induction h with
  | nil => cases hlast
  | cons hpart hrest ih =>
    cases hrest with
    | nil =>
      cases hlast
      exact ⟨_, rfl, hpart⟩
    | cons _ _ =>
      rw [List.getLast?_cons_cons] at hlast ⊢
      exact ih hlast

theorem PlannedLeg.PartOf.record {part whole : PlannedLeg} (h : part.PartOf whole)
    (request : ExchangeRequest) (now : Instant) (id : ExchangeId) :
    Exchange.PartOf ⟨Desk.PlannedLeg.record part request now, id⟩
      ⟨Desk.PlannedLeg.record whole request now, id⟩ := by
  refine ⟨?_, h.given, h.taken⟩
  rw [h.terms]
  rfl

-- ---------------------------------------------------------------------------
-- The exchange of a smaller amount
-- ---------------------------------------------------------------------------

theorem Decimal.PartOf.toHome {part whole : Decimal} (h : part.PartOf whole) (rate : Rate) :
    (Coupling.beside env).Couples (ofExcept (convertToHome whole rate))
      (ofExcept (convertToHome part rate)) fun whole part => part.PartOf whole := by
  refine .ofExcept (fun large hok => ?_) False.elim
  obtain ⟨small, hok', hle⟩ := convertToHome_mono h.nonneg h.le (convertToHome_ok.mp hok).1
    (Decimal.le_iff_value.mpr le_rfl) hok
  exact ⟨small, hok', convertToHome_nonneg h.nonneg hok', hle⟩

theorem Decimal.PartOf.fromHome {part whole : Decimal} (h : part.PartOf whole) (rate : Rate) :
    (Coupling.beside env).Couples (ofExcept (convertFromHome scale whole rate))
      (ofExcept (convertFromHome scale part rate)) fun whole part => part.PartOf whole := by
  refine .ofExcept (fun large hok => ?_) False.elim
  obtain ⟨small, hok', hle⟩ := convertFromHome_mono h.nonneg h.le (convertFromHome_ok.mp hok).1
    (Decimal.le_iff_value.mpr le_rfl) hok
  exact ⟨small, hok', convertFromHome_nonneg h.nonneg hok', hle⟩

theorem Coupling.parts_preparation (env : Environment) (hsmall : small.isPositive = true)
    (hle : small ≤ request.amount) :
    (Coupling.beside env).Preparation request small fun p p' => p'.PartOf p where
  positive := .ofExcept (fun u _ => ⟨u, by simp [checkPositive, hsmall], rfl⟩) False.elim
  noted _ := trivial
  known _ := rfl
  homes _ _ _ := rfl
  planned _ _ _ _ := by
    have hrates (currency : CurrencyCode) (type : RateType) (s s' : Session) (hs : s.Beside s') :
        s'.book.findRateAsOf currency type request.date =
          s.book.findRateAsOf currency type request.date := by
      simp only [Book.findRateAsOf, hs.rates]
    have hpart : small.PartOf request.amount := ⟨(Decimal.isPositive_iff_value.mp hsmall).le, hle⟩
    exact Desk.plan_couples (A := fun whole part => part.PartOf whole) hpart (fun _ => hrates _ _)
      (fun _ => hrates _ _) hpart.toHome (fun _ _ rate h => h.fromHome rate)
      fun _ _ _ _ _ _ _ hgiven htaken => ⟨rfl, hgiven, htaken⟩

/-- Postings are found by the staff and by the currencies of a leg, so amounts do not matter. -/
def Coupling.parts (env : Environment) (request : ExchangeRequest) :
    (Coupling.beside env).Settlement request where
  Plans p p' := p'.PartOf p
  Times := Eq
  Numbers _ _ := True
  Records _ _ e e' := e'.PartOf e
  Movements _ _ _ _ := True
  begins := Store.begin_beside
  clock := .of_total (fun _ => rfl) (fun _ => rfl) fun _ _ hs =>
    ⟨congrArg env.clock hs.readings.symm, { hs with readings := congrArg (· + 1) hs.readings }⟩
  inserts := by
    rintro p p' now _ hp rfl
    refine (Store.insertExchange_beside _ _).mono ?_
    rintro _ _ ⟨id, rfl, rfl⟩
    exact hp.record request now id
  terms h := by
    rw [h.terms]
    exact ⟨rfl, rfl, rfl, rfl⟩
  sequence := .of_total (fun _ => rfl) (fun _ => rfl) fun _ _ hs => ⟨trivial, { hs with }⟩
  drafts _ _ := .of_total (fun _ => rfl) (fun _ => rfl) fun _ _ hs => ⟨rfl, { hs with }⟩
  drafted _ _ _ _ _ _ := trivial
  cash _ := Store.recordTransaction_beside _ _
  debit _ := Store.postEntry_beside _ _
  credit _ := Store.postEntry_beside _ _
  commits := Store.commit_beside
  committed _ := trivial

theorem Desk.execute_part {legs : List ExecutedLeg} (hsmall : small.isPositive = true)
    (hle : small ≤ request.amount) (h : execute request env s = (.ok legs, t)) :
    ∃ legs' t', execute { request with amount := small } env s = (.ok legs', t') ∧
      PartLegs legs legs' := by
  obtain ⟨legs', t', h', hlegs, -⟩ := (execute_couples (Coupling.parts env request)
    (Coupling.parts_preparation env hsmall hle) s s (.refl s)).ok h
  exact ⟨legs', t', h', hlegs.imp fun _ _ ⟨_, _, _, hrecord, _⟩ => hrecord⟩

-- ---------------------------------------------------------------------------
-- Order
-- ---------------------------------------------------------------------------

/-- A smaller amount gives no more into home currency at a rate that is not higher, and no more out
of it at a rate that is not lower. So where an exchange succeeds, one of a smaller positive amount
at the same desk succeeds with parts of its legs (`PartLegs`), and takes no more in the end. -/
theorem less_takes_no_more :
    (∀ (a b : Decimal) (low high : Rate) (large : Decimal), a.isPositive = true → a ≤ b →
      low.amount.isPositive = true → low.amount ≤ high.amount → convertToHome b high = .ok large →
      ∃ small, convertToHome a low = .ok small ∧ small ≤ large) ∧
    (∀ (scale : ℕ) (a b : Decimal) (low high : Rate) (large : Decimal), a.isPositive = true →
      a ≤ b → low.amount.isPositive = true → low.amount ≤ high.amount →
      convertFromHome scale b low = .ok large →
      ∃ small, convertFromHome scale a high = .ok small ∧ small ≤ large) ∧
    ∀ (env : Environment) (s t : Session) (request : ExchangeRequest) (small : Decimal)
      (legs : List ExecutedLeg), small.isPositive = true → small ≤ request.amount →
      Desk.execute request env s = (.ok legs, t) →
      ∃ legs' t', Desk.execute { request with amount := small } env s = (.ok legs', t') ∧
        PartLegs legs legs' ∧ ∃ last last', legs.getLast? = some last ∧
          legs'.getLast? = some last' ∧ last'.exchange.amountTaken ≤ last.exchange.amountTaken := by
  refine ⟨fun a b low high large ha hle hlow hrates h => ?_,
    fun scale a b low high large ha hle hlow hrates h => ?_,
    fun env s t request small legs hsmall hle h => ?_⟩
  · exact convertToHome_mono (Decimal.isPositive_iff_value.mp ha).le hle hlow hrates h
  · exact convertFromHome_mono (Decimal.isPositive_iff_value.mp ha).le hle hlow hrates h
  · obtain ⟨legs', t', h', hlegs⟩ := Desk.execute_part hsmall hle h
    obtain ⟨last, hlast⟩ := Option.isSome_iff_exists.mp
      (List.getLast?_isSome.mpr (Desk.execute_ne_nil h))
    obtain ⟨last', hlast', hpart⟩ := hlegs.last hlast
    exact ⟨legs', t', h', hlegs, last, last', hlast, hlast', hpart.taken.le⟩

/-- The product with `fineAmount` has room for 28 digits at this rate and not at `highRate`. -/
def lowRate : Rate := dollarsAt ((Decimal.ofParts? false 792281625142642 14).getD .zero)

def highRate : Rate := dollarsAt ((Decimal.ofParts? false 792281625142644 14).getD .zero)

def centLess : Decimal := (Decimal.ofParts? false 9999 2).getD .zero

theorem less_takes_no_more_digits :
    (∃ small large, convertToHome fineAmount lowRate = .ok small ∧ small.scale = 28 ∧
      convertToHome fineAmount highRate = .ok large ∧ large.scale = 27 ∧ small ≤ large) ∧
    (∃ small large, convertFromHome 28 centLess highRate = .ok small ∧
      convertFromHome 28 hundred lowRate = .ok large ∧ small ≤ large) ∧
    ∃ legs t legs' t', Desk.execute smallRequest {} { book := smallBook } = (.ok legs, t) ∧
      Desk.execute { smallRequest with amount := centLess } {} { book := smallBook } =
        (.ok legs', t') ∧ PartLegs legs legs' := by
  obtain ⟨hinto, hout, hexecute⟩ := less_takes_no_more
  have hrates : lowRate.amount ≤ highRate.amount := by decide
  refine ⟨?_, ?_, ?_⟩
  · let large : Decimal := { negative := false, mantissa := 7922816251426447922816251426, scale := 27 }
    have hlarge : convertToHome fineAmount highRate = .ok large := by decide +kernel
    obtain ⟨small, hsmall, hle⟩ := hinto fineAmount fineAmount lowRate highRate large (by decide)
      (by decide) (by decide) hrates hlarge
    have hscale : (convertToHome fineAmount lowRate).map (·.scale) = .ok 28 := by decide +kernel
    rw [hsmall] at hscale
    exact ⟨small, large, hsmall, Except.ok.inj hscale, hlarge, rfl, hle⟩
  · have hok : (convertFromHome 28 hundred lowRate).isOk = true := by decide +kernel
    cases hlarge : convertFromHome 28 hundred lowRate with
    | error e =>
      rw [hlarge] at hok
      cases hok
    | ok large =>
      obtain ⟨small, hsmall, hle⟩ := hout 28 centLess hundred lowRate highRate large (by decide)
        (by decide) (by decide) hrates hlarge
      exact ⟨small, large, hsmall, rfl, hle⟩
  · have hok : (Desk.execute smallRequest {} { book := smallBook }).1.isOk = true := by
      decide +kernel
    rcases hrun : Desk.execute smallRequest {} { book := smallBook } with ⟨e | legs, t⟩
    · rw [hrun] at hok
      cases hok
    · obtain ⟨legs', t', hrun', hlegs, -⟩ := hexecute {} { book := smallBook } t smallRequest centLess
        legs (by decide) (by decide) hrun
      exact ⟨legs, t, legs', t', rfl, hrun', hlegs⟩

end ExchangeDesk
