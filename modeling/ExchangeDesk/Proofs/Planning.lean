import ExchangeDesk.Desk.Exchanges
import ExchangeDesk.Proofs.Store

/-!
# What a request is planned into

Up to the first write an exchange only reads. `Accepted` says what a request
has met by then: the two currencies and the route between them, and the planned
legs, each with the rate in force and the amount it converts to.
`execute_triple` leaves of an exchange only what is done with the plan.
-/

namespace ExchangeDesk

open ExchangeDesk.Action

variable {env : Environment} {s : Session}

/-- The currency that a desk knows under a code; its registry comes first. -/
def knownCurrency (env : Environment) (b : Book) (code : CurrencyCode) : Option Currency :=
  (env.registry.find? (·.code = code)).or (b.findCurrency code)

def flaggedCurrencies (env : Environment) (b : Book) : List Currency :=
  b.homeCurrencies ++ env.registry.filter (·.isHome)

theorem knownCurrency_own (h : env.registry = []) (b : Book) (code : CurrencyCode) :
    knownCurrency env b code = b.findCurrency code := by
  rw [knownCurrency, h, List.find?_nil, Option.none_or]

theorem flaggedCurrencies_own (h : env.registry = []) (b : Book) :
    flaggedCurrencies env b = b.homeCurrencies := by
  rw [flaggedCurrencies, h, List.filter_nil, List.append_nil]

theorem knownCurrency_code {b : Book} {code : CurrencyCode} {c : Currency}
    (h : knownCurrency env b code = some c) : c.code = code := by
  rcases Option.or_eq_some_iff.mp h with h | ⟨-, h⟩
  · simpa using List.find?_some h
  · simpa using List.find?_some h

theorem knownCurrency_flagged {b : Book} {code : CurrencyCode} {c : Currency}
    (h : knownCurrency env b code = some c) (hflag : c.isHome = true) :
    c ∈ flaggedCurrencies env b := by
  rcases Option.or_eq_some_iff.mp h with h | ⟨-, h⟩
  · exact List.mem_append_right _ (List.mem_filter.mpr ⟨List.mem_of_find?_eq_some h, hflag⟩)
  · exact List.mem_append_left _ (List.mem_filter.mpr ⟨List.mem_of_find?_eq_some h, hflag⟩)

/-- The two currencies of a request as a desk knows them. -/
structure Sides (env : Environment) (b : Book) (request : ExchangeRequest)
    (source target : Currency) : Prop where
  source : ∃ code, CurrencyCode.parse request.currencyFrom.text = .ok code ∧
    knownCurrency env b code = some source
  target : ∃ code, CurrencyCode.parse request.currencyTo.text = .ok code ∧
    knownCurrency env b code = some target

theorem Sides.unique {b : Book} {request : ExchangeRequest}
    {source target source' target' : Currency} (h : Sides env b request source target)
    (h' : Sides env b request source' target') : source' = source ∧ target' = target := by
  obtain ⟨⟨_, hsource, hknown⟩, ⟨_, htarget, hknown'⟩⟩ := h
  obtain ⟨⟨_, hsource', hown⟩, ⟨_, htarget', hown'⟩⟩ := h'
  cases hsource.symm.trans hsource'
  cases htarget.symm.trans htarget'
  cases hknown.symm.trans hown
  cases hknown'.symm.trans hown'
  exact ⟨rfl, rfl⟩

-- ---------------------------------------------------------------------------
-- Routes and legs
-- ---------------------------------------------------------------------------

/-- The route that the home flags of the two sides ask for. -/
inductive Routed (env : Environment) (b : Book) (source target : Currency) : Route → Prop
  | toHome (hs : source.isHome = false) (ht : target.isHome = true) :
      Routed env b source target .toHome
  | fromHome (hs : source.isHome = true) (ht : target.isHome = false) :
      Routed env b source target .fromHome
  | cross {home : Currency} (hs : source.isHome = false) (ht : target.isHome = false)
      (hh : flaggedCurrencies env b = [home]) : Routed env b source target (.cross home.code)

structure PlannedLeg.IntoHome (b : Book) (date : Date) (source home : CurrencyCode)
    (amount : Decimal) (p : PlannedLeg) : Prop where
  currencyFrom : p.currencyFrom = source
  currencyTo : p.currencyTo = home
  amountGiven : p.amountGiven = amount
  inForce : b.findRateAsOf source .buying date = some p.rate
  converted : convertToHome amount p.rate = .ok p.amountTaken

structure PlannedLeg.OutOfHome (scale : Nat) (b : Book) (date : Date) (home target : CurrencyCode)
    (amount : Decimal) (p : PlannedLeg) : Prop where
  currencyFrom : p.currencyFrom = home
  currencyTo : p.currencyTo = target
  amountGiven : p.amountGiven = amount
  inForce : b.findRateAsOf target .selling date = some p.rate
  converted : convertFromHome scale amount p.rate = .ok p.amountTaken

/-- The legs of a route. What the first one takes, the second one gives. -/
inductive Planned (scale : Nat) (b : Book) (date : Date) (source target : CurrencyCode)
    (amount : Decimal) : Route → List PlannedLeg → Prop
  | toHome {p : PlannedLeg} (h : p.IntoHome b date source target amount) :
      Planned scale b date source target amount .toHome [p]
  | fromHome {p : PlannedLeg} (h : p.OutOfHome scale b date source target amount) :
      Planned scale b date source target amount .fromHome [p]
  | cross {home : CurrencyCode} {first second : PlannedLeg}
      (h₁ : first.IntoHome b date source home amount)
      (h₂ : second.OutOfHome scale b date home target first.amountTaken) :
      Planned scale b date source target amount (.cross home) [first, second]

/-- What a request has met once its legs are planned. -/
structure Accepted (env : Environment) (b : Book) (request : ExchangeRequest)
    (source target : Currency) (way : Route) (plans : List PlannedLeg) : Prop where
  differ : request.currencyFrom.sameSpelling request.currencyTo = false
  knowsSource : ∃ code, CurrencyCode.parse request.currencyFrom.text = .ok code ∧
    knownCurrency env b code = some source
  knowsTarget : ∃ code, CurrencyCode.parse request.currencyTo.text = .ok code ∧
    knownCurrency env b code = some target
  amount : request.amount.isPositive = true
  client : request.client.validate = .ok ()
  routed : Routed env b source target way
  planned : Planned env.rateScale b request.date source.code target.code request.amount way plans

theorem Accepted.sides {b : Book} {request : ExchangeRequest} {source target : Currency}
    {way : Route} {plans : List PlannedLeg}
    (h : Accepted env b request source target way plans) : Sides env b request source target :=
  ⟨h.knowsSource, h.knowsTarget⟩

theorem checkPositive_ok {field : AmountField} {amount : Decimal} {u : Unit}
    (h : checkPositive field amount = .ok u) : amount.isPositive = true := by
  unfold checkPositive at h
  split at h
  · assumption
  · cases h

namespace Desk

theorem requireCurrency_reads (code : CurrencyCode) :
    Reads (requireCurrency code) env s fun c => knownCurrency env s.book code = some c := by
  refine Reads.bind (Store.findCurrency_reads code).concealing ?_
  rintro _ s' rfl -
  exact Reads.orFail

theorem resolveAsOf_reads (currency : CurrencyCode) (type : RateType) (date : Date) :
    Reads (resolveAsOf currency type date) env s
      fun rate => s.book.findRateAsOf currency type date = some rate := by
  refine Reads.bind (Store.findRateAsOf_reads currency type date).concealing ?_
  rintro found s' rfl -
  split
  · next rate hrate =>
    refine Reads.bind (Reads.note rfl) ?_
    rintro _ s'' - -
    exact Reads.pure hrate
  · exact Reads.fail

theorem homeCurrency_reads :
    Reads homeCurrency env s fun home => flaggedCurrencies env s.book = [home] := by
  refine Reads.bind Store.homeCurrencies_reads.concealing ?_
  rintro homes s' hh -
  split
  · exact Reads.pure hh.symm
  · exact Reads.fail

theorem route_reads (source target : Currency) :
    Reads (route source target) env s (Routed env s.book source target) := by
  unfold route
  split
  · next hs ht => exact Reads.pure (.toHome hs ht)
  · next hs ht => exact Reads.pure (.fromHome hs ht)
  · next hs ht =>
    refine Reads.bind homeCurrency_reads ?_
    rintro home s' hh -
    exact Reads.pure (.cross hs ht hh)
  · refine Reads.bind homeCurrency_reads ?_
    rintro home s' - -
    exact Reads.fail

theorem planToHome_reads (source home : CurrencyCode) (amount : Decimal) (date : Date) :
    Reads (planToHome source home amount date) env s
      (PlannedLeg.IntoHome s.book date source home amount) := by
  refine Reads.bind (resolveAsOf_reads source .buying date) ?_
  rintro rate s' hrate -
  refine Reads.bind Reads.ofExcept ?_
  rintro taken s'' htaken -
  exact Reads.pure ⟨rfl, rfl, rfl, hrate, htaken⟩

theorem planFromHome_reads (home target : CurrencyCode) (amount : Decimal) (date : Date) :
    Reads (planFromHome home target amount date) env s
      (PlannedLeg.OutOfHome env.rateScale s.book date home target amount) := by
  refine Reads.bind (resolveAsOf_reads target .selling date) ?_
  rintro rate s' hrate -
  refine Reads.bind Reads.environment ?_
  rintro _ s' rfl -
  refine Reads.bind Reads.ofExcept ?_
  rintro taken s'' htaken -
  exact Reads.pure ⟨rfl, rfl, rfl, hrate, htaken⟩

theorem plan_reads (way : Route) (source target : CurrencyCode) (amount : Decimal) (date : Date) :
    Reads (plan way source target amount date) env s
      (Planned env.rateScale s.book date source target amount way) := by
  cases way with
  | toHome =>
    refine Reads.bind (planToHome_reads source target amount date) ?_
    rintro p s' hp -
    exact Reads.pure (.toHome hp)
  | fromHome =>
    refine Reads.bind (planFromHome_reads source target amount date) ?_
    rintro p s' hp -
    exact Reads.pure (.fromHome hp)
  | cross home =>
    refine Reads.bind (planToHome_reads source home amount date) ?_
    rintro first s' h₁ hs
    refine Reads.bind (planFromHome_reads home target first.amountTaken date) ?_
    rintro second s'' h₂ -
    rw [hs.book] at h₂
    exact Reads.pure (.cross h₁ h₂)

-- ---------------------------------------------------------------------------
-- Up to the first write
-- ---------------------------------------------------------------------------

/-- An exchange up to its first write: it is checked, routed and planned. -/
def prepare (request : ExchangeRequest) : Action DeskError (List PlannedLeg) := do
  if request.currencyFrom.sameSpelling request.currencyTo then
    fail (.invalidCurrencyPair request.currencyFrom)
  else
    let sourceCode ← ofExcept (CurrencyCode.parse request.currencyFrom.text)
    let targetCode ← ofExcept (CurrencyCode.parse request.currencyTo.text)
    ofExcept (checkPositive .amount request.amount)
    ofExcept request.client.validate
    let source ← requireCurrency sourceCode
    let target ← requireCurrency targetCode
    let way ← route source target
    note .debug .engine
      (s!"exchanging {request.amount} {source.code} into {target.code} on {request.date}: " ++
        way.text)
    plan way source.code target.code request.amount request.date

def settle (request : ExchangeRequest) (plans : List PlannedLeg) :
    Action DeskError (List ExecutedLeg) := do
  match (← environment).atomicity with
  | .allLegs => commitLegs request plans
  | .perLeg => commitEach request plans.length [] plans

section

variable {request : ExchangeRequest} {plans : List PlannedLeg}
  {Q : List ExecutedLeg → Session → Prop} {E : DeskError → Session → Prop}

theorem settle_allLegs (hmode : env.atomicity = .allLegs)
    (h : Triple (commitLegs request plans) env s Q E) :
    Triple (settle request plans) env s Q E := by
  refine Triple.bind (Triple.environment (Q := fun env' s' => env' = env ∧ s' = s) ⟨rfl, rfl⟩) ?_
  rintro _ _ ⟨rfl, rfl⟩
  rw [hmode]
  exact h

theorem settle_perLeg (hmode : env.atomicity = .perLeg)
    (h : Triple (commitEach request plans.length [] plans) env s Q E) :
    Triple (settle request plans) env s Q E := by
  refine Triple.bind (Triple.environment (Q := fun env' s' => env' = env ∧ s' = s) ⟨rfl, rfl⟩) ?_
  rintro _ _ ⟨rfl, rfl⟩
  rw [hmode]
  exact h

end

theorem execute_eq (request : ExchangeRequest) :
    execute request = prepare request >>= settle request := by
  unfold execute prepare
  split
  · rfl
  · simp only [bind_assoc]
    rfl

theorem prepare_reads (request : ExchangeRequest) :
    Reads (prepare request) env s fun plans =>
      ∃ source target way, Accepted env s.book request source target way plans := by
  unfold prepare
  split
  · exact Reads.fail
  next hdiffer =>
  refine Reads.bind Reads.ofExcept fun sourceCode s₁ hsource h₁ => ?_
  refine Reads.bind Reads.ofExcept fun targetCode s₂ htarget h₂ => ?_
  refine Reads.bind Reads.ofExcept fun _ s₃ hamount h₃ => ?_
  refine Reads.bind Reads.ofExcept fun _ s₄ hclient h₄ => ?_
  replace h₄ := ((h₁.trans h₂).trans h₃).trans h₄
  refine Reads.bind (requireCurrency_reads sourceCode) fun source s₅ hknown h₅ => ?_
  replace h₅ := h₄.trans h₅
  refine Reads.bind (requireCurrency_reads targetCode) fun target s₆ hknown' h₆ => ?_
  replace h₆ := h₅.trans h₆
  refine Reads.bind (route_reads source target) fun way s₇ hrouted h₇ => ?_
  refine Reads.bind (Reads.note rfl) fun _ s₈ _ h₈ => ?_
  replace h₈ := (h₆.trans h₇).trans h₈
  refine Reads.mono (plan_reads ..) fun plans hplanned => ?_
  -- each step read the book of an earlier session that agrees with `s`
  rw [h₄.book] at hknown
  rw [h₅.book] at hknown'
  rw [h₆.book] at hrouted
  rw [h₈.book] at hplanned
  exact ⟨source, target, way, by simpa using hdiffer, ⟨_, hsource, hknown⟩, ⟨_, htarget, hknown'⟩,
    checkPositive_ok hamount, hclient, hrouted, hplanned⟩

/-- An exchange fails before anything is written, or commits an accepted plan as
the environment asks for. -/
theorem execute_triple {request : ExchangeRequest} {Q : List ExecutedLeg → Session → Prop}
    {E : DeskError → Session → Prop} (hfail : ∀ e s', s.Agrees s' → E e s')
    (hsettle : ∀ source target way plans s', Accepted env s.book request source target way plans →
      s.Agrees s' → Triple (settle request plans) env s' Q E) :
    Triple (execute request) env s Q E := by
  rw [execute_eq]
  refine Reads.before (.refl s) (prepare_reads request) hfail fun plans s' haccepted h => ?_
  obtain ⟨source, target, way, haccepted⟩ := haccepted
  exact hsettle source target way plans s' haccepted h

end Desk
end ExchangeDesk
