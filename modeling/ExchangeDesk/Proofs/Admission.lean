import ExchangeDesk.Proofs.Codes
import ExchangeDesk.Proofs.Conditions
import ExchangeDesk.Proofs.Meaning

/-!
# What an exchange asks for

`conditions` lists what a request has to meet, in the order in which refusals
take precedence: the request by itself, the currencies, the rates of all legs,
and then what the legs are posted with. `Admissible` says the same without an
order, and `conditions_met` that the two agree.
-/

namespace ExchangeDesk

variable {b b' : Book} {scale : Nat} {request : ExchangeRequest} {date : Date} {amount : Decimal}

-- ---------------------------------------------------------------------------
-- Hops
-- ---------------------------------------------------------------------------

/-- One way between a currency and the home currency. -/
inductive Hop where
  | intoHome (source home : CurrencyCode)
  | outOfHome (home target : CurrencyCode)
  deriving DecidableEq, Repr

namespace Hop

def source : Hop → CurrencyCode
  | intoHome source _ => source
  | outOfHome home _ => home

def target : Hop → CurrencyCode
  | intoHome _ home => home
  | outOfHome _ target => target

def quoted : Hop → CurrencyCode
  | intoHome source _ => source
  | outOfHome _ target => target

def rateType : Hop → RateType
  | intoHome .. => .buying
  | outOfHome .. => .selling

/-- What an amount is worth at the other end; `none` if that does not fit a
decimal. -/
def worth (scale : Nat) (amount rate : Decimal) : Hop → Option Decimal
  | intoHome .. => amount.mul rate
  | outOfHome .. => (amount.div rate).map fun quotient => (quotient.round scale).rescale scale

end Hop

/-- The hops between two currencies: one if either is the home currency, and
otherwise two by way of it. -/
def hops (source target home : CurrencyCode) : List Hop :=
  if target = home then [.intoHome source home]
  else if source = home then [.outOfHome home target]
  else [.intoHome source home, .outOfHome home target]

-- ---------------------------------------------------------------------------
-- Conditions in their order
-- ---------------------------------------------------------------------------

def Hop.conditions (scale : Nat) (b : Book) (date : Date) (amount : Decimal) (hop : Hop)
    (next : Decimal → List Condition) : List Condition :=
  whenFound (b.findRateAsOf hop.quoted hop.rateType date)
    (.rateNotFound hop.quoted hop.rateType date) fun rate =>
  ⟨rate.amount.isPositive, .invalidRateAmount (some rate.id) rate.currency rate.amount⟩ ::
  whenFound (hop.worth scale amount rate.amount) (.amountOverflow amount rate.amount) next

def conversions (scale : Nat) (b : Book) (date : Date) : Decimal → List Hop → List Condition
  | _, [] => []
  | amount, hop :: rest =>
    hop.conditions scale b date amount fun taken => conversions scale b date taken rest

/-- The cash of a currency has an account in the vault and one at the teller. -/
def accountsFor (b : Book) (currency : CurrencyCode) : List Condition :=
  Activity.all.map fun activity =>
    ⟨(b.findAccount activity currency).isSome, .accountNotConfigured activity currency⟩

def postings (b : Book) (staff : StaffId) (source target : CurrencyCode) : List Condition :=
  ⟨(b.findCashier staff).isSome, .cashierNotFound staff⟩ ::
  [source, target].flatMap (accountsFor b)

def shortEnough (text : Option String) : Bool := text.all (·.length ≤ 50)

/-- What a request has to meet to be exchanged, in order. -/
def conditions (scale : Nat) (b : Book) (request : ExchangeRequest) : List Condition :=
  ⟨!request.currencyFrom.sameSpelling request.currencyTo,
    .invalidCurrencyPair request.currencyFrom⟩ ::
  whenFound (CurrencyCode.parse? request.currencyFrom.text)
    (.invalidCurrencyCode request.currencyFrom.text) fun source =>
  whenFound (CurrencyCode.parse? request.currencyTo.text)
    (.invalidCurrencyCode request.currencyTo.text) fun target =>
  ⟨request.amount.isPositive, .invalidAmount .amount request.amount⟩ ::
  ⟨shortEnough request.client.id, .fieldTooLong .clientId⟩ ::
  ⟨shortEnough request.client.name, .fieldTooLong .clientName⟩ ::
  ⟨(b.findCurrency source).isSome, .currencyNotFound source⟩ ::
  ⟨(b.findCurrency target).isSome, .currencyNotFound target⟩ ::
  whenFound b.homeCurrencies.head? (.homeCurrencyNotConfigured 0) fun home =>
  conversions scale b request.date request.amount (hops source target home.code) ++
  (hops source target home.code).flatMap fun hop =>
    postings b request.user.staff hop.source hop.target

theorem conditions_congr (hcurrencies : b'.currencies = b.currencies) (hrates : b'.rates = b.rates)
    (hcashiers : b'.cashiers = b.cashiers) (haccounts : b'.accounts = b.accounts) :
    conditions scale b' request = conditions scale b request := by
  have hconversions (amount : Decimal) (way : List Hop) :
      conversions scale b' request.date amount way =
        conversions scale b request.date amount way := by
    induction way generalizing amount with
    | nil => rfl
    | cons hop rest ih => simp only [conversions, Hop.conditions, Book.findRateAsOf, hrates, ih]
  have haccountsFor : accountsFor b' = accountsFor b := by
    funext currency
    simp only [accountsFor, Book.findAccount, haccounts]
  simp only [conditions, hconversions, Book.findCurrency, Book.homeCurrencies, hcurrencies,
    postings, haccountsFor, Book.findCashier, hcashiers]

-- ---------------------------------------------------------------------------
-- Conditions without an order
-- ---------------------------------------------------------------------------

/-- All hops have a positive rate in force, at which the amount that arrives
there can be converted. -/
inductive Convertible (scale : Nat) (b : Book) (date : Date) : Decimal → List Hop → Prop
  | nil {amount : Decimal} : Convertible scale b date amount []
  | cons {amount taken : Decimal} {hop : Hop} {rest : List Hop} {rate : Rate}
      (inForce : InForce b hop.quoted hop.rateType date rate)
      (positive : rate.amount.isPositive = true)
      (fits : hop.worth scale amount rate.amount = some taken)
      (next : Convertible scale b date taken rest) : Convertible scale b date amount (hop :: rest)

/-- What a request has to meet to be exchanged. -/
structure Admissible (scale : Nat) (b : Book) (request : ExchangeRequest)
    (source target : CurrencyCode) (home : Currency) : Prop where
  parsesFrom : CurrencyCode.parse request.currencyFrom.text = .ok source
  parsesTo : CurrencyCode.parse request.currencyTo.text = .ok target
  differ : source ≠ target
  amount : request.amount.isPositive = true
  clientId : ∀ text ∈ request.client.id, text.length ≤ 50
  clientName : ∀ text ∈ request.client.name, text.length ≤ 50
  registeredFrom : ∃ c ∈ b.currencies, c.code = source
  registeredTo : ∃ c ∈ b.currencies, c.code = target
  homeKnown : home ∈ b.currencies ∧ home.isHome = true
  convertible : Convertible scale b request.date request.amount (hops source target home.code)
  cashier : ∃ c ∈ b.cashiers, c.staff = request.user.staff
  accounts : ∀ hop ∈ hops source target home.code, ∀ currency ∈ [hop.source, hop.target],
    ∀ activity, ∃ a ∈ b.accounts, a.activity = activity ∧ a.currency = currency

-- ---------------------------------------------------------------------------
-- Agreement
-- ---------------------------------------------------------------------------

theorem CurrencyCode.sameSpelling_iff {a b x y : CurrencyCode} (ha : parse a.text = .ok x)
    (hb : parse b.text = .ok y) : a.sameSpelling b = true ↔ x = y := by
  rw [sameSpelling, parse_spelling ha, parse_spelling hb, beq_iff_eq]
  constructor
  · intro h
    cases x
    cases y
    exact congrArg CurrencyCode.mk (String.toList_inj.mp h)
  · rintro rfl
    rfl

theorem Book.findCurrency_isSome {code : CurrencyCode} :
    (b.findCurrency code).isSome = true ↔ ∃ c ∈ b.currencies, c.code = code := by
  simp [findCurrency]

theorem Book.Sound.homeCurrencies_head (hb : b.Sound) {home : Currency} :
    b.homeCurrencies.head? = some home ↔ home ∈ b.currencies ∧ home.isHome = true := by
  constructor
  · intro h
    exact List.mem_filter.mp (List.mem_of_head? h)
  · rintro ⟨hmem, hflag⟩
    rw [hb.home_eq hmem hflag]
    rfl

theorem shortEnough_iff {text : Option String} :
    shortEnough text = true ↔ ∀ t ∈ text, t.length ≤ 50 := by
  cases text with
  | none => simp [shortEnough]
  | some t => simp [shortEnough]

theorem conversions_met (hb : b.Sound) (way : List Hop) :
    AllMet (conversions scale b date amount way) ↔ Convertible scale b date amount way := by
  induction way generalizing amount with
  | nil => exact ⟨fun _ => .nil, fun _ => allMet_nil⟩
  | cons hop rest ih =>
    simp only [conversions, Hop.conditions, allMet_whenFound, allMet_cons, ih,
      Book.findRateAsOf_iff hb.rateIds]
    constructor
    · rintro ⟨rate, hforce, hpositive, taken, hfits, hrest⟩
      exact .cons hforce hpositive hfits hrest
    · rintro (_ | ⟨hforce, hpositive, hfits, hrest⟩)
      exact ⟨_, hforce, hpositive, _, hfits, hrest⟩

theorem postings_met {staff : StaffId} {source target : CurrencyCode} :
    AllMet (postings b staff source target) ↔ (∃ c ∈ b.cashiers, c.staff = staff) ∧
      ∀ currency ∈ [source, target], ∀ activity,
        ∃ a ∈ b.accounts, a.activity = activity ∧ a.currency = currency := by
  have haccounts (currency : CurrencyCode) : AllMet (accountsFor b currency) ↔
      ∀ activity, ∃ a ∈ b.accounts, a.activity = activity ∧ a.currency = currency := by
    simp only [accountsFor, Activity.all, List.map_cons, List.map_nil, allMet_cons, allMet_nil,
      Book.findAccount, List.find?_isSome, Bool.and_eq_true, decide_eq_true_eq, and_true]
    constructor
    · rintro ⟨hvault, hteller⟩ activity
      cases activity with
      | cashAtMainVault => exact hvault
      | cashAtTeller => exact hteller
    · intro h
      exact ⟨h .cashAtMainVault, h .cashAtTeller⟩
  simp only [postings, allMet_cons, allMet_flatMap, haccounts, Book.findCashier,
    List.find?_isSome, decide_eq_true_eq]

theorem hops_ne_nil (source target home : CurrencyCode) : hops source target home ≠ [] := by
  unfold hops
  split
  · simp
  · split
    · simp
    · simp

theorem conditions_met (hb : b.Sound) : AllMet (conditions scale b request) ↔
    ∃ source target home, Admissible scale b request source target home := by
  simp only [conditions, allMet_cons, allMet_whenFound, allMet_append, allMet_flatMap,
    conversions_met hb, postings_met, hb.homeCurrencies_head, Book.findCurrency_isSome,
    shortEnough_iff, ← CurrencyCode.parse_iff, Bool.not_eq_true']
  constructor
  · rintro ⟨hspelling, source, hsource, target, htarget, hamount, hid, hname, hfrom, hto, home,
      hhome, hconvertible, hposted⟩
    have hdiffer : source ≠ target := by
      intro h
      rw [← CurrencyCode.sameSpelling_iff hsource htarget, hspelling] at h
      cases h
    obtain ⟨hop, hhop⟩ := List.exists_mem_of_ne_nil _ (hops_ne_nil source target home.code)
    exact ⟨source, target, home, hsource, htarget, hdiffer, hamount, hid, hname, hfrom, hto, hhome,
      hconvertible, (hposted hop hhop).1, fun hop hhop => (hposted hop hhop).2⟩
  · rintro ⟨source, target, home, h⟩
    refine ⟨?_, source, h.parsesFrom, target, h.parsesTo, h.amount, h.clientId, h.clientName,
      h.registeredFrom, h.registeredTo, home, h.homeKnown, h.convertible,
      fun hop hhop => ⟨h.cashier, h.accounts hop hhop⟩⟩
    rw [← Bool.not_eq_true, CurrencyCode.sameSpelling_iff h.parsesFrom h.parsesTo]
    exact h.differ

end ExchangeDesk
