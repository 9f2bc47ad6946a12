import ExchangeDesk.Proofs.Admission
import ExchangeDesk.Proofs.Calm

/-!
# When an exchange succeeds and how it is refused

With a store that answers every call, an exchange heeds the conditions of its
request (`execute_heeds`). So it succeeds exactly if the request is admissible,
and fails with the error of the first condition that is not met, whatever was
exchanged before and however the legs are committed (`execute_answer`).
-/

namespace ExchangeDesk

open ExchangeDesk.Action

variable {env : Environment} {s s' : Session} {b : Book} {request : ExchangeRequest}

-- ---------------------------------------------------------------------------
-- The request by itself
-- ---------------------------------------------------------------------------

namespace Heeds

variable {α : Type} {cs : List Condition} {R : α → Session → Prop}

theorem parse {text : String} {f : CurrencyCode → Action DeskError α}
    {next : CurrencyCode → List Condition}
    (hf : ∀ code, CurrencyCode.parse text = .ok code → Heeds (f code) env s (next code) R) :
    Heeds (ofExcept (CurrencyCode.parse text) >>= f) env s
      (whenFound (CurrencyCode.parse? text) (.invalidCurrencyCode text) next) R := by
  refine demand (Q := fun _ s' => s' = s) ?_ ?_
  · refine Triple.ofExcept (fun code hcode => ⟨CurrencyCode.parse_iff.mp hcode, rfl⟩) fun e he => ?_
    unfold CurrencyCode.parse at he
    split at he
    · cases he
    · next hnone => exact ⟨hnone, (Except.error.inj he).symm⟩
  · rintro code _ hcode rfl
    exact hf code (CurrencyCode.parse_iff.mpr hcode)

theorem positive {field : AmountField} {amount : Decimal} {f : Unit → Action DeskError α}
    (hf : Heeds (f ()) env s cs R) :
    Heeds (ofExcept (checkPositive field amount) >>= f) env s
      (⟨amount.isPositive, .invalidAmount field amount⟩ :: cs) R := by
  refine check (Q := fun _ s' => s' = s) ?_ ?_
  · unfold checkPositive
    split
    · next h => exact ⟨h, rfl⟩
    · next h => exact ⟨by simpa using h, rfl⟩
  · rintro _ _ - rfl
    exact hf

theorem short {field : ClientField} {value : Option String} {f : Unit → Action DeskError α}
    (hf : Heeds (f ()) env s cs R) :
    Heeds (ofExcept (checkClientField field value) >>= f) env s
      (⟨shortEnough value, .fieldTooLong field⟩ :: cs) R := by
  refine check (Q := fun _ s' => s' = s) ?_ ?_
  · unfold checkClientField
    cases value with
    | none => exact ⟨rfl, rfl⟩
    | some text =>
      dsimp only
      split
      · next h => exact ⟨by simpa [shortEnough] using h, rfl⟩
      · next h => exact ⟨by simpa [shortEnough] using h, rfl⟩
  · rintro _ _ - rfl
    exact hf

end Heeds

theorem Action.ofExcept_bind {ε α β : Type} (x : Except ε α) (g : α → Except ε β) :
    ofExcept (x >>= g) = ofExcept x >>= fun a => ofExcept (g a) := by
  cases x with
  | ok a => rfl
  | error e => rfl

-- ---------------------------------------------------------------------------
-- Routing and planning
-- ---------------------------------------------------------------------------

def Route.hops (source target : CurrencyCode) : Route → List Hop
  | .toHome => [.intoHome source target]
  | .fromHome => [.outOfHome source target]
  | .cross home => [.intoHome source home, .outOfHome home target]

def Hop.ends (hop : Hop) : CurrencyCode × CurrencyCode := (hop.source, hop.target)

def PlannedLeg.ends (p : PlannedLeg) : CurrencyCode × CurrencyCode := (p.currencyFrom, p.currencyTo)

def Hop.convert (scale : Nat) (amount : Decimal) (rate : Rate) (hop : Hop) :
    Except DeskError Decimal := do
  let factor ← rate.positiveAmount
  match hop.worth scale amount factor with
  | some taken => return taken
  | none => throw (.amountOverflow amount factor)

theorem convertFromHome_eq (scale : Nat) (amount : Decimal) (rate : Rate)
    (home target : CurrencyCode) :
    convertFromHome scale amount rate = (Hop.outOfHome home target).convert scale amount rate := by
  unfold convertFromHome Hop.convert
  congr 1
  funext factor
  simp only [Hop.worth]
  cases amount.div factor with
  | some quotient => rfl
  | none => rfl

namespace Desk

def planHop (amount : Decimal) (date : Date) (hop : Hop) : Action DeskError PlannedLeg := do
  let rate ← resolveAsOf hop.quoted hop.rateType date
  let taken ← ofExcept (hop.convert (← environment).rateScale amount rate)
  return ⟨rate, hop.source, hop.target, amount, taken⟩

def planHops (date : Date) : Decimal → List Hop → Action DeskError (List PlannedLeg)
  | _, [] => return []
  | amount, hop :: rest => do
    let p ← planHop amount date hop
    return p :: (← planHops date p.amountTaken rest)

theorem planToHome_eq (source home : CurrencyCode) (amount : Decimal) (date : Date) :
    planToHome source home amount date = planHop amount date (.intoHome source home) := rfl

theorem planFromHome_eq (home target : CurrencyCode) (amount : Decimal) (date : Date) :
    planFromHome home target amount date = planHop amount date (.outOfHome home target) := by
  simp only [planFromHome, planHop, convertFromHome_eq _ _ _ home target]
  rfl

theorem plan_eq (way : Route) (source target : CurrencyCode) (amount : Decimal) (date : Date) :
    plan way source target amount date = planHops date amount (way.hops source target) := by
  cases way with
  | toHome => simp [plan, Route.hops, planHops, planToHome_eq]
  | fromHome => simp [plan, Route.hops, planHops, planFromHome_eq]
  | cross home => simp [plan, Route.hops, planHops, planToHome_eq, planFromHome_eq]

theorem resolveAsOf_demand (h : env.Calm) (currency : CurrencyCode) (type : RateType)
    (date : Date) :
    Triple (resolveAsOf currency type date) env s
      (fun rate s' => s.book.findRateAsOf currency type date = some rate ∧ s.Agrees s')
      (fun e _ => s.book.findRateAsOf currency type date = none ∧
        e = .rateNotFound currency type date) := by
  refine Triple.seq ((Store.findRateAsOf_reads currency type date).sure
    (Store.findRateAsOf_sure h currency type date)) (fun _ _ he => he.elim) ?_
  rintro found s₁ ⟨rfl, h₁⟩
  split
  · next rate hrate =>
    refine h₁.note rfl fun s₂ h₂ => ?_
    exact Triple.pure ⟨hrate, h₂⟩
  · next hnone => exact Triple.fail ⟨hnone, rfl⟩

theorem planHop_heeds {α : Type} {amount : Decimal} {date : Date} {hop : Hop}
    {next : Decimal → List Condition} {f : PlannedLeg → Action DeskError α}
    {R : α → Session → Prop} (h : env.Calm)
    (hf : ∀ p s', p.ends = hop.ends → s.Agrees s' → Heeds (f p) env s' (next p.amountTaken) R) :
    Heeds (planHop amount date hop >>= f) env s
      (hop.conditions env.rateScale s.book date amount next) R := by
  simp only [planHop, bind_assoc, pure_bind]
  refine Heeds.demand (resolveAsOf_demand h ..) fun rate s₁ _ h₁ => ?_
  refine Heeds.after (Q := fun env' s' => env = env' ∧ s₁ = s') (Triple.environment ⟨rfl, rfl⟩) ?_
  rintro _ _ ⟨rfl, rfl⟩
  -- the conversion asks for a positive rate first and then for a result that fits
  rw [Hop.convert, ofExcept_bind, bind_assoc]
  refine Heeds.check (Q := fun factor s' => rate.amount = factor ∧ s₁ = s') ?_ ?_
  · unfold Rate.positiveAmount
    split
    · next hpositive => exact ⟨hpositive, rfl, rfl⟩
    · next hpositive => exact ⟨by simpa using hpositive, rfl⟩
  rintro _ _ - ⟨rfl, rfl⟩
  refine Heeds.demand (Q := fun _ s' => s₁ = s') ?_ ?_
  · cases hop.worth env.rateScale amount rate.amount with
    | some taken => exact ⟨rfl, rfl⟩
    | none => exact ⟨rfl, rfl⟩
  rintro taken _ - rfl
  exact hf _ s₁ rfl h₁

theorem planHops_heeds (h : env.Calm) (date : Date) (amount : Decimal) (way : List Hop) :
    Heeds (planHops date amount way) env s (conversions env.rateScale s.book date amount way)
      fun plans s' => plans.map (·.ends) = way.map (·.ends) ∧ s.Agrees s' := by
  induction way generalizing s amount with
  | nil => exact Triple.pure ⟨allMet_nil, rfl, .refl s⟩
  | cons hop rest ih =>
    refine planHop_heeds h fun p s₁ hends h₁ => ?_
    rw [← h₁.book, ← List.append_nil (conversions ..)]
    refine Heeds.bind (ih p.amountTaken) ?_
    rintro plans s₂ ⟨hplans, h₂⟩
    exact Triple.pure ⟨allMet_nil, by simp [hends, hplans], h₁.trans h₂⟩

theorem requireCurrency_demand (h : env.Calm) (hregistry : env.registry = [])
    (code : CurrencyCode) :
    Triple (requireCurrency code) env s
      (fun c s' => s.book.findCurrency code = some c ∧ s.Agrees s')
      (fun e _ => s.book.findCurrency code = none ∧ e = .currencyNotFound code) := by
  have hreads : Reads (Store.findCurrency code) env s (· = s.book.findCurrency code) := by
    refine (Store.findCurrency_reads code).mono ?_
    rintro _ rfl
    simp [hregistry]
  exact hreads.demand (Store.findCurrency_sure h code)

theorem homeCurrency_demand (h : env.Calm) (hregistry : env.registry = []) (hb : s.book.Sound) :
    Triple homeCurrency env s
      (fun home s' => s.book.homeCurrencies.head? = some home ∧ s.Agrees s')
      (fun e _ => s.book.homeCurrencies.head? = none ∧ e = .homeCurrencyNotConfigured 0) := by
  refine Triple.seq (Store.homeCurrencies_reads.sure (Store.homeCurrencies_sure h))
    (fun _ _ he => he.elim) ?_
  rintro homes s₁ ⟨rfl, h₁⟩
  rw [hregistry, List.filter_nil, List.append_nil]
  have honly := hb.oneHome
  split
  · next home hhome => exact Triple.pure ⟨by rw [hhome]; rfl, h₁⟩
  · next hhome =>
    -- at most one currency has the flag, and there is not exactly one
    cases hhomes : s.book.homeCurrencies with
    | nil => exact Triple.fail ⟨rfl, rfl⟩
    | cons home rest =>
      rw [hhomes, List.length_cons] at honly
      obtain rfl : rest = [] := List.length_eq_zero_iff.mp (by omega)
      exact absurd hhomes (hhome home)

/-- Of two different currencies at most one is the home currency, so a route is
missing only if the book has none. -/
theorem route_demand {source target : Currency} (h : env.Calm) (hregistry : env.registry = [])
    (hb : s.book.Sound) (hs : source ∈ s.book.currencies) (ht : target ∈ s.book.currencies)
    (hdiffer : source.code ≠ target.code) :
    Triple (route source target) env s
      (fun way s' => ∃ home, s.book.homeCurrencies.head? = some home ∧
        way.hops source.code target.code = hops source.code target.code home.code ∧ s.Agrees s')
      (fun e _ => s.book.homeCurrencies.head? = none ∧ e = .homeCurrencyNotConfigured 0) := by
  unfold route
  split
  · next hfrom hto =>
    refine Triple.pure ⟨target, hb.homeCurrencies_head.mpr ⟨ht, hto⟩, ?_, .refl s⟩
    simp [Route.hops, hops]
  · next hfrom hto =>
    refine Triple.pure ⟨source, hb.homeCurrencies_head.mpr ⟨hs, hfrom⟩, ?_, .refl s⟩
    simp [Route.hops, hops, hdiffer.symm]
  · next hfrom hto =>
    refine Triple.bind (homeCurrency_demand h hregistry hb) ?_
    rintro home s₁ ⟨hhome, h₁⟩
    obtain ⟨hmem, hflag⟩ := hb.homeCurrencies_head.mp hhome
    have hsource := hb.code_ne hs hmem (by simp [hfrom, hflag])
    have htarget := hb.code_ne ht hmem (by simp [hto, hflag])
    exact Triple.pure ⟨home, hhome, by simp [Route.hops, hops, hsource, htarget], h₁⟩
  · next hfrom hto =>
    have hsame := (hb.home_eq hs hfrom).symm.trans (hb.home_eq ht hto)
    exact absurd (congrArg Currency.code (List.singleton_inj.mp hsame)) hdiffer

theorem prepare_heeds {α : Type} {f : List PlannedLeg → Action DeskError α}
    {R : α → Session → Prop} (h : env.Calm) (hregistry : env.registry = []) (hb : s.book.Sound)
    (hf : ∀ plans s' (way : List Hop), plans.map (·.ends) = way.map (·.ends) → s.Agrees s' →
      Heeds (f plans) env s'
        (way.flatMap fun hop => postings s.book request.user.staff hop.source hop.target) R) :
    Heeds (prepare request >>= f) env s (conditions env.rateScale s.book request) R := by
  unfold prepare conditions
  split
  · next hspelling =>
    exact Triple.of_run_error rfl (Refuses.here
      (c := ⟨!request.currencyFrom.sameSpelling request.currencyTo, _⟩) (by simp [hspelling]))
  next hspelling =>
  simp only [bind_assoc, Client.validate, ofExcept_bind]
  refine Heeds.known (by simpa using hspelling) ?_
  refine Heeds.parse fun sourceCode hsource => Heeds.parse fun targetCode htarget => ?_
  refine Heeds.positive (Heeds.short (Heeds.short ?_))
  refine Heeds.present (requireCurrency_demand h hregistry sourceCode) fun source s₁ hfrom h₁ => ?_
  rw [← h₁.book] at hfrom hb ⊢
  refine Heeds.present (requireCurrency_demand h hregistry targetCode) fun target s₂ hto h₂ => ?_
  rw [← h₂.book] at hfrom hto hb ⊢
  replace h₂ := h₁.trans h₂
  obtain ⟨hmemFrom, rfl⟩ := Book.findCurrency_some hfrom
  obtain ⟨hmemTo, rfl⟩ := Book.findCurrency_some hto
  have hdiffer : source.code ≠ target.code := by
    intro hcode
    exact hspelling ((CurrencyCode.sameSpelling_iff hsource htarget).mpr hcode)
  refine Heeds.demandFor (route_demand h hregistry hb hmemFrom hmemTo hdiffer) ?_
  rintro home way s₃ - ⟨hway, h₃⟩
  refine Heeds.after (Q := fun _ s' => s₃.Agrees s')
    (Triple.note ((Session.Agrees.refl s₃).logged rfl)) fun _ s₄ h₄ => ?_
  replace h₄ := h₃.trans h₄
  rw [plan_eq, hway, ← h₄.book]
  refine Heeds.bind (planHops_heeds h ..) ?_
  rintro plans s₅ ⟨hends, h₅⟩
  rw [h₄.book, h₂.book]
  exact hf plans s₅ _ hends (h₂.trans (h₄.trans h₅))

-- ---------------------------------------------------------------------------
-- Posting and committing
-- ---------------------------------------------------------------------------

theorem findAccount_demand (h : env.Calm) (hs : b.SameSetup s.book) (activity : Activity)
    (currency : CurrencyCode) :
    Triple (findAccount activity currency) env s
      (fun _ s' => (b.findAccount activity currency).isSome = true ∧ b.SameSetup s'.book)
      (fun e _ => (b.findAccount activity currency).isSome = false ∧
        e = .accountNotConfigured activity currency) := by
  have hsame : s.book.findAccount activity currency = b.findAccount activity currency := by
    simp only [Book.findAccount, hs.accounts]
  refine Triple.seq ((Store.findAccount_reads activity currency).sure
    (Store.findAccount_sure h activity currency)) (fun _ _ he => he.elim) ?_
  rintro _ s₁ ⟨rfl, h₁⟩
  rw [hsame]
  cases b.findAccount activity currency with
  | some account => exact Triple.pure ⟨rfl, h₁.book ▸ hs⟩
  | none => exact Triple.fail ⟨rfl, rfl⟩

theorem movement_heeds (h : env.Calm) (hs : b.SameSetup s.book) (leg : Exchange) (cashier : Cashier)
    (direction : Direction) (amount : Decimal) (currency : CurrencyCode) (instant : Instant) :
    Heeds (movement leg cashier direction amount currency instant) env s (accountsFor b currency)
      fun _ s' => b.SameSetup s'.book := by
  unfold movement
  refine Heeds.check (findAccount_demand h hs .cashAtMainVault currency) fun vault s₁ _ h₁ => ?_
  refine Heeds.check (findAccount_demand h h₁ .cashAtTeller currency) fun teller s₂ _ h₂ => ?_
  refine Heeds.of_sure ?_
  cases direction with
  | inward => exact Triple.of_run rfl h₂
  | outward => exact Triple.of_run rfl h₂

theorem preparePostings_heeds (h : env.Calm) (hs : b.SameSetup s.book) (leg : Exchange)
    (instant : Instant) :
    Heeds (preparePostings leg instant) env s
      (postings b leg.user.staff leg.currencyFrom leg.currencyTo)
      fun _ s' => b.SameSetup s'.book := by
  have hcashier : s.book.findCashier leg.user.staff = b.findCashier leg.user.staff := by
    simp only [Book.findCashier, hs.cashiers]
  unfold preparePostings
  rw [← bind_assoc]
  refine Heeds.present (hcashier ▸ (Store.findCashier_reads leg.user.staff).demand
    (Store.findCashier_sure h leg.user.staff)) fun cashier s₁ _ h₁ => ?_
  rw [← h₁.book] at hs
  refine Heeds.bind (movement_heeds h hs ..) fun outward s₂ h₂ => ?_
  refine Heeds.bind (movement_heeds h h₂ ..) fun inward s₃ h₃ => ?_
  exact Triple.pure ⟨allMet_nil, h₃⟩

theorem recordMovement_sure (h : env.Calm) (m : CashMovement) : Sure (recordMovement m) env s := by
  refine Sure.bind (Store.recordTransaction_sure h _).concealed fun _ _ => ?_
  refine Sure.bind (Store.postEntry_sure h _).concealed fun _ _ => ?_
  exact (Store.postEntry_sure h _).concealed

theorem postLeg_heeds (h : env.Calm) (hs : b.SameSetup s.book) (leg : Exchange)
    (instant : Instant) :
    Heeds (postLeg leg instant) env s (postings b leg.user.staff leg.currencyFrom leg.currencyTo)
      fun _ _ => True := by
  unfold postLeg
  rw [← List.append_nil (postings ..)]
  refine Heeds.bind (preparePostings_heeds h hs leg instant) fun p s₁ _ => ?_
  refine Heeds.after (recordMovement_sure h p.outward) fun _ s₂ _ => ?_
  refine Heeds.after (recordMovement_sure h p.inward) fun _ s₃ _ => ?_
  exact Triple.pure ⟨allMet_nil, trivial⟩

theorem writeLeg_heeds (h : env.Calm) (hs : b.SameSetup s.book) (now : Instant) (p : PlannedLeg) :
    Heeds (writeLeg request now p) env s
      (postings b request.user.staff p.currencyFrom p.currencyTo) fun _ _ => True := by
  unfold writeLeg
  refine Heeds.after ((Store.insertExchange_sure h _).concealing
    (Store.insertExchange_writes (PlannedLeg.record p request now))) ?_
  rintro exchange s₁ ⟨_, ⟨rfl, rfl⟩, h₁⟩
  rw [← List.append_nil (postings ..)]
  refine Heeds.bind (postLeg_heeds (b := b) h ?_ _ now) fun p s₂ _ => ?_
  · rw [h₁.book]
    exact ⟨hs.currencies, hs.cashiers, hs.accounts⟩
  · exact Triple.pure ⟨allMet_nil, trivial⟩

theorem writeLegs_heeds (h : env.Calm) (hs : b.SameSetup s.book) (now : Instant)
    (plans : List PlannedLeg) :
    Heeds (writeLegs request now plans) env s
      (plans.flatMap fun p => postings b request.user.staff p.currencyFrom p.currencyTo)
      fun _ _ => True := by
  induction plans generalizing s with
  | nil => exact Triple.pure ⟨allMet_nil, trivial⟩
  | cons p plans ih =>
    rw [List.flatMap_cons, ← List.append_nil (List.flatMap ..)]
    refine Heeds.bind ((writeLeg_heeds h hs now p).and (writeLeg_triple request now p)) ?_
    rintro leg s₁ ⟨-, -, -, h₁⟩
    refine Heeds.bind (ih ?_) fun legs s₂ _ => ?_
    · rw [h₁.book]
      exact ⟨hs.currencies, hs.cashiers, hs.accounts⟩
    · exact Triple.pure ⟨allMet_nil, trivial⟩

theorem commitLegs_heeds (h : env.Calm) (hb : Reachable s.book) (hs : b.SameSetup s.book)
    (plans : List PlannedLeg) :
    Heeds (commitLegs request plans) env s
      (plans.flatMap fun p => postings b request.user.staff p.currencyFrom p.currencyTo)
      fun _ _ => True := by
  unfold commitLegs
  refine Heeds.after ((Store.begin_sure h).concealing Store.begin_writes) ?_
  rintro _ s₁ ⟨_, rfl, h₁⟩
  refine Heeds.after (Q := fun _ s' => s' = { s₁ with readings := s₁.readings + 1 })
    (Triple.readClock rfl) ?_
  rintro now _ rfl
  rw [← List.append_nil (List.flatMap ..)]
  refine Heeds.bind ((writeLegs_heeds (b := b) h ?_ now plans).and
    (writeLegs_triple request now plans)) ?_
  · rw [h₁.book]
    exact hs
  rintro legs s₃ ⟨-, hwritten, h₃⟩
  simp only [h₁.book, h₁.sequence] at hwritten
  obtain ⟨after, hcommit⟩ : ∃ after, s₃.book.commit s₃.staged = .ok after := by
    refine ⟨_, Book.commit_ok.mpr ⟨?_, rfl⟩⟩
    simpa [h₃.book, h₃.staged, Session.write, h₁.book, h₁.staged, Staged.addLegs,
      Book.findExchange] using hwritten.absent hb
  refine Heeds.after ((Store.commit_sure h hcommit).concealing Store.commit_writes) fun _ s₄ _ => ?_
  refine Heeds.after (noteCommitted_triple legs) fun _ s₅ _ => ?_
  exact Triple.pure ⟨allMet_nil, trivial⟩

theorem commitEach_heeds (h : env.Calm) (hb : Reachable s.book) (hs : b.SameSetup s.book)
    (total : Nat) (done : List ExecutedLeg) (plans : List PlannedLeg) :
    Heeds (commitEach request total done plans) env s
      (plans.flatMap fun p => postings b request.user.staff p.currencyFrom p.currencyTo)
      fun _ _ => True := by
  induction plans generalizing s done with
  | nil => exact Triple.pure ⟨allMet_nil, trivial⟩
  | cons p plans ih =>
    have hfirst := Heeds.and (commitLegs_heeds h hb hs [p]) (commitLegs_triple request [p])
    rw [List.flatMap_singleton] at hfirst
    refine Heeds.bind hfirst.onError ?_
    rintro legs s₁ ⟨-, hcommitted⟩
    -- the next unit of work meets the same setup and numbers that are drawn later
    refine ih (hb.committed hcommitted) ?_ _
    rw [hcommitted.book]
    exact ⟨hs.currencies, hs.cashiers, hs.accounts⟩

theorem settle_heeds (h : env.Calm) (hb : Reachable s.book) (hs : b.SameSetup s.book)
    (plans : List PlannedLeg) :
    Heeds (settle request plans) env s
      (plans.flatMap fun p => postings b request.user.staff p.currencyFrom p.currencyTo)
      fun _ _ => True := by
  cases hmode : env.atomicity with
  | allLegs => exact settle_allLegs hmode (commitLegs_heeds h hb hs plans)
  | perLeg => exact settle_perLeg hmode (commitEach_heeds h hb hs plans.length [] plans)

-- ---------------------------------------------------------------------------
-- The answer
-- ---------------------------------------------------------------------------

theorem execute_heeds (hb : Reachable s.book) (h : env.Calm) (hregistry : env.registry = [])
    (request : ExchangeRequest) :
    Heeds (execute request) env s (conditions env.rateScale s.book request) fun _ _ => True := by
  rw [execute_eq]
  refine prepare_heeds h hregistry hb.sound fun plans s₁ way hends h₁ => ?_
  have hpostings : (plans.flatMap fun p =>
        postings s.book request.user.staff p.currencyFrom p.currencyTo) =
      way.flatMap fun hop => postings s.book request.user.staff hop.source hop.target := by
    have hmapped := congrArg
      (List.flatMap fun ends => postings s.book request.user.staff ends.1 ends.2) hends
    rw [List.flatMap_map, List.flatMap_map] at hmapped
    exact hmapped
  rw [← hpostings]
  rw [← h₁.book] at hb
  exact settle_heeds h hb (h₁.book ▸ .refl s.book) plans

def answer (request : ExchangeRequest) (env : Environment) (s : Session) : Except DeskError Unit :=
  (execute request env s).1.map fun _ => ()

section

variable (hb : Reachable s.book) (h : env.Calm) (hregistry : env.registry = [])
include hb h hregistry

theorem answer_ok_iff : answer request env s = .ok () ↔
    AllMet (conditions env.rateScale s.book request) := by
  rw [← (execute_heeds hb h hregistry request).answer_ok, answer]
  cases (execute request env s).1 with
  | error e => simp [Except.map]
  | ok legs => simp [Except.map]

theorem answer_error_iff {e : DeskError} : answer request env s = .error e ↔
    Refuses (conditions env.rateScale s.book request) e := by
  rw [← (execute_heeds hb h hregistry request).answer_error, answer]
  cases (execute request env s).1 with
  | error e => simp [Except.map]
  | ok legs => simp [Except.map]

theorem answer_congr {env' : Environment} (hb' : Reachable s'.book) (h' : env'.Calm)
    (hregistry' : env'.registry = []) (hscale : env'.rateScale = env.rateScale)
    (hsetup : s.book.SameSetup s'.book) (hrates : s'.book.rates = s.book.rates) :
    answer request env' s' = answer request env s := by
  have hconditions : conditions env'.rateScale s'.book request =
      conditions env.rateScale s.book request := by
    rw [hscale]
    exact conditions_congr hsetup.currencies hrates hsetup.cashiers hsetup.accounts
  cases hanswer : answer request env s with
  | ok u =>
    rw [answer_ok_iff hb' h' hregistry', hconditions]
    exact (answer_ok_iff hb h hregistry).mp hanswer
  | error e =>
    rw [answer_error_iff hb' h' hregistry', hconditions]
    exact (answer_error_iff hb h hregistry).mp hanswer

end

/-- Where the store fails no call and the desk has no registry, an exchange succeeds exactly if its
request is `Admissible`, and otherwise returns the error of the first of its `conditions` that is
not met. The answer depends on the setup and the rates of the book: not on exchanges made before,
the clock, the sequence or the atomicity. -/
theorem execute_answer (hb : Reachable s.book) (h : env.Calm) (hregistry : env.registry = [])
    (request : ExchangeRequest) :
    (answer request env s = .ok () ↔
      ∃ source target home, Admissible env.rateScale s.book request source target home) ∧
    (∀ e, answer request env s = .error e ↔
      Refuses (conditions env.rateScale s.book request) e) ∧
    ∀ env' s', Reachable s'.book → env'.Calm → env'.registry = [] →
      env'.rateScale = env.rateScale → s.book.SameSetup s'.book → s'.book.rates = s.book.rates →
      answer request env' s' = answer request env s := by
  refine ⟨?_, fun e => answer_error_iff hb h hregistry, ?_⟩
  · rw [answer_ok_iff hb h hregistry, conditions_met hb.sound]
  · intro env' s' hb' h' hregistry' hscale hsetup hrates
    exact answer_congr hb h hregistry hb' h' hregistry' hscale hsetup hrates

theorem execute_answer_smallRequest :
    Reachable smallBook ∧
      (∃ source target home, Admissible rateScale smallBook smallRequest source target home) ∧
      answer { smallRequest with currencyTo := ⟨"GBP"⟩ } {} { book := smallBook } =
        .error (.currencyNotFound ⟨"GBP"⟩) ∧
      answer smallRequest { atomicity := .perLeg } { book := smallBook, sequence := 5 } =
        answer smallRequest {} { book := smallBook } := by
  have hreachable : Reachable smallBook := .of_snapshot smallBook_loaded
  have hcalm : ({} : Environment).Calm := fun _ _ => rfl
  refine ⟨hreachable, ?_, ?_, ?_⟩
  · have hanswer := execute_answer (s := { book := smallBook }) hreachable hcalm rfl smallRequest
    exact hanswer.1.mp (by decide +kernel)
  · have hanswer := execute_answer (s := { book := smallBook }) hreachable hcalm rfl
      { smallRequest with currencyTo := ⟨"GBP"⟩ }
    exact (hanswer.2.1 _).mpr ⟨⟨false, .currencyNotFound ⟨"GBP"⟩⟩, by decide +kernel, rfl⟩
  · have hanswer := execute_answer (s := { book := smallBook }) hreachable hcalm rfl smallRequest
    exact hanswer.2.2 { atomicity := .perLeg } _ hreachable (fun _ _ => rfl) rfl rfl (.refl _) rfl

end Desk
end ExchangeDesk
