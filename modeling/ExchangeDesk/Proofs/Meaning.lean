import ExchangeDesk.Proofs.Codes
import ExchangeDesk.Proofs.Conversion
import ExchangeDesk.Proofs.Rates

/-!
# What a successful exchange means

Said without the steps of the desk: which legs an exchange has, at which stored
rates and amounts, and what the book holds afterwards (`execute_meaning`). The
book has to be reachable, since the lookups of the desk rely on what every
reachable book keeps.
-/

namespace ExchangeDesk

variable {env : Environment} {s s' : Session} {b : Book} {request : ExchangeRequest}
  {plans : List PlannedLeg} {legs : List ExecutedLeg} {source target home : CurrencyCode}
  {amount : Decimal} {date : Date}

-- ---------------------------------------------------------------------------
-- Legs
-- ---------------------------------------------------------------------------

/-- A leg that turns an amount into home currency at the buying rate in force. -/
structure ToHome (b : Book) (date : Date) (source home : CurrencyCode) (amount : Decimal)
    (e : Exchange) : Prop where
  currencyFrom : e.currencyFrom = source
  currencyTo : e.currencyTo = home
  given : e.amountGiven = amount
  taken : ∃ rate, InForce b source .buying date rate ∧ rate.amount.isPositive = true ∧
    e.rate = rate.id ∧ convertToHome amount rate = .ok e.amountTaken

/-- A leg that turns home currency into another at the selling rate in force. -/
structure FromHome (scale : Nat) (b : Book) (date : Date) (home target : CurrencyCode)
    (amount : Decimal) (e : Exchange) : Prop where
  currencyFrom : e.currencyFrom = home
  currencyTo : e.currencyTo = target
  given : e.amountGiven = amount
  taken : ∃ rate, InForce b target .selling date rate ∧ rate.amount.isPositive = true ∧
    e.rate = rate.id ∧ convertFromHome scale amount rate = .ok e.amountTaken

/-- The legs between two currencies: one if either is the home currency, and
otherwise two by way of it. -/
inductive LegsBetween (scale : Nat) (b : Book) (date : Date) (source target home : CurrencyCode)
    (amount : Decimal) : List Exchange → Prop
  | toHome {e : Exchange} (h : target = home) (leg : ToHome b date source home amount e) :
      LegsBetween scale b date source target home amount [e]
  | fromHome {e : Exchange} (h : source = home) (leg : FromHome scale b date home target amount e) :
      LegsBetween scale b date source target home amount [e]
  | cross {first second : Exchange} (hs : source ≠ home) (ht : target ≠ home)
      (leg₁ : ToHome b date source home amount first)
      (leg₂ : FromHome scale b date home target first.amountTaken second) :
      LegsBetween scale b date source target home amount [first, second]

theorem PlannedLeg.IntoHome.toHome {p : PlannedLeg} {now : Instant} {id : ExchangeId} {e : Exchange}
    (hids : (b.rates.map (·.id)).Nodup) (h : p.IntoHome b date source home amount)
    (record : e = ⟨Desk.PlannedLeg.record p request now, id⟩) :
    ToHome b date source home amount e := by
  subst record
  exact ⟨h.currencyFrom, h.currencyTo, h.amountGiven, p.rate,
    Book.findRateAsOf_inForce hids h.inForce, (convertToHome_ok.mp h.converted).1, rfl, h.converted⟩

theorem PlannedLeg.OutOfHome.fromHome {p : PlannedLeg} {scale : Nat} {now : Instant}
    {id : ExchangeId} {e : Exchange} (hids : (b.rates.map (·.id)).Nodup)
    (h : p.OutOfHome scale b date home target amount)
    (record : e = ⟨Desk.PlannedLeg.record p request now, id⟩) :
    FromHome scale b date home target amount e := by
  subst record
  exact ⟨h.currencyFrom, h.currencyTo, h.amountGiven, p.rate,
    Book.findRateAsOf_inForce hids h.inForce, (convertFromHome_ok.mp h.converted).1, rfl,
    h.converted⟩

/-- The record is in the name of the user, the client and the date of a request. -/
structure Exchange.MadeFor (e : Exchange) (request : ExchangeRequest) : Prop where
  user : e.user = request.user
  client : e.client = request.client
  date : e.date = request.date

theorem Written.madeFor {number sequence : Nat}
    (h : Written b request number sequence plans legs) :
    ∀ leg ∈ legs, leg.exchange.MadeFor request := by
  intro leg hleg
  obtain ⟨p, -, now, id, hrecord⟩ := h.recorded leg hleg
  rw [hrecord]
  exact ⟨rfl, rfl, rfl⟩

-- ---------------------------------------------------------------------------
-- Currencies
-- ---------------------------------------------------------------------------

theorem Book.findCurrency_some {code : CurrencyCode} {c : Currency}
    (h : b.findCurrency code = some c) : c ∈ b.currencies ∧ c.code = code :=
  ⟨List.mem_of_find?_eq_some h, by simpa using List.find?_some h⟩

theorem Book.Sound.home_eq {c : Currency} (h : b.Sound) (hc : c ∈ b.currencies)
    (hflag : c.isHome = true) : b.homeCurrencies = [c] :=
  eq_singleton h.oneHome (List.mem_filter.mpr ⟨hc, hflag⟩)

theorem Book.Sound.code_ne {c d : Currency} (h : b.Sound) (hc : c ∈ b.currencies)
    (hd : d ∈ b.currencies) (hflags : c.isHome ≠ d.isHome) : c.code ≠ d.code := by
  intro hcode
  obtain rfl := List.inj_on_of_nodup_map h.codes hc hd hcode
  exact hflags rfl

namespace CurrencyCode

theorem parse_spelling {text : String} {code : CurrencyCode} (h : parse text = .ok code) :
    (Text.trim text.toList).map Char.toUpper = code.text.toList := by
  obtain ⟨-, -, rfl⟩ := parse?_iff_trim.mp (parse_iff.mp h)
  rw [String.toList_ofList]

theorem sameSpelling_of_parse {a b code : CurrencyCode} (ha : parse a.text = .ok code)
    (hb : parse b.text = .ok code) : a.sameSpelling b = true := by
  rw [sameSpelling, parse_spelling ha, parse_spelling hb]
  exact beq_self_eq_true _

end CurrencyCode

-- ---------------------------------------------------------------------------
-- The whole exchange
-- ---------------------------------------------------------------------------

theorem Accepted.currencies {source target : Currency} {way : Route}
    (hregistry : env.registry = []) (h : Accepted env b request source target way plans) :
    source ∈ b.currencies ∧ target ∈ b.currencies ∧
      CurrencyCode.parse request.currencyFrom.text = .ok source.code ∧
      CurrencyCode.parse request.currencyTo.text = .ok target.code := by
  obtain ⟨sourceCode, hsource, hknown⟩ := h.knowsSource
  obtain ⟨targetCode, htarget, hknown'⟩ := h.knowsTarget
  rw [knownCurrency_own hregistry] at hknown hknown'
  obtain ⟨hs, rfl⟩ := Book.findCurrency_some hknown
  obtain ⟨ht, rfl⟩ := Book.findCurrency_some hknown'
  exact ⟨hs, ht, hsource, htarget⟩

theorem Routed.crosses {source target : Currency} (hb : b.Sound) (hregistry : env.registry = [])
    (hs : source ∈ b.currencies) (ht : target ∈ b.currencies)
    (h : Routed env b source target (.cross home)) :
    ∃ c, b.homeCurrencies = [c] ∧ c.code = home ∧ source.code ≠ home ∧ target.code ≠ home := by
  cases h with
  | @cross c hfrom hto hhome =>
    rw [flaggedCurrencies_own hregistry] at hhome
    obtain ⟨hmem, hflag⟩ := List.mem_filter.mp (hhome ▸ List.mem_singleton_self c)
    refine ⟨c, hhome, rfl, ?_, ?_⟩
    · exact hb.code_ne hs hmem (by simp [hfrom, hflag])
    · exact hb.code_ne ht hmem (by simp [hto, hflag])

theorem legsBetween {source target : Currency} {way : Route} {number sequence scale : Nat}
    (hb : b.Sound) (hregistry : env.registry = []) (hs : source ∈ b.currencies)
    (ht : target ∈ b.currencies) (hrouted : Routed env b source target way)
    (hplanned : Planned scale b date source.code target.code amount way plans)
    (hwritten : Written b request number sequence plans legs) :
    ∃ home, b.homeCurrencies = [home] ∧
      LegsBetween scale b date source.code target.code home.code amount
        (legs.map (·.exchange)) := by
  cases hrouted with
  | toHome hfrom hto =>
    cases hplanned with
    | toHome h =>
      obtain - | ⟨record, -, ⟨⟩⟩ := hwritten
      exact ⟨target, hb.home_eq ht hto, .toHome rfl (h.toHome hb.rateIds record)⟩
  | fromHome hfrom hto =>
    cases hplanned with
    | fromHome h =>
      obtain - | ⟨record, -, ⟨⟩⟩ := hwritten
      exact ⟨source, hb.home_eq hs hfrom, .fromHome rfl (h.fromHome hb.rateIds record)⟩
  | @cross home hfrom hto hhome =>
    obtain ⟨c, hc, hcode, hsource, htarget⟩ :=
      Routed.crosses hb hregistry hs ht (.cross hfrom hto hhome)
    cases hplanned with
    | @cross _ first _ h₁ h₂ =>
      obtain - | ⟨record₁, -, - | ⟨record₂, -, ⟨⟩⟩⟩ := hwritten
      refine ⟨c, hc, ?_⟩
      rw [hcode]
      refine .cross hsource htarget (h₁.toHome hb.rateIds record₁) ?_
      dsimp only
      rw [record₁]
      exact h₂.fromHome hb.rateIds record₂

/-- A successful exchange commits the legs that the rates in force make between its two currencies
(`LegsBetween`). Each is a record of the request (`MadeFor`) under the next number, with its two
postings (`Settles`); nothing else in the book changes. -/
theorem execute_meaning (hb : Reachable s.book) (hregistry : env.registry = [])
    (h : Desk.execute request env s = (.ok legs, s')) :
    ∃ source target home, CurrencyCode.parse request.currencyFrom.text = .ok source ∧
      CurrencyCode.parse request.currencyTo.text = .ok target ∧ source ≠ target ∧
      s.book.homeCurrencies = [home] ∧
      LegsBetween env.rateScale s.book request.date source target home.code request.amount
        (legs.map (·.exchange)) ∧
      legs.map (·.exchange.id.number) = List.range' s.book.nextExchange legs.length ∧
      (∀ leg ∈ legs, leg.exchange.MadeFor request ∧
        Settles s.book leg.exchange .outward leg.postings.outward ∧
        Settles s.book leg.exchange .inward leg.postings.inward) ∧
      s'.book = s.book.withLegs legs := by
  obtain ⟨source, target, way, plans, haccepted, hcommitted⟩ := (Desk.execute_spec request).ok h
  obtain ⟨sourceCode, hsource, hknown⟩ := haccepted.knowsSource
  obtain ⟨targetCode, htarget, hknown'⟩ := haccepted.knowsTarget
  simp only [knownCurrency, hregistry, List.find?_nil, Option.none_or] at hknown hknown'
  obtain ⟨hs, rfl⟩ := Book.findCurrency_some hknown
  obtain ⟨ht, rfl⟩ := Book.findCurrency_some hknown'
  obtain ⟨home, hhome, hlegs⟩ := legsBetween hb.sound hregistry hs ht haccepted.routed
    haccepted.planned hcommitted.written
  refine ⟨source.code, target.code, home, hsource, htarget, ?_, hhome, hlegs,
    hcommitted.written.numbers, ?_, hcommitted.book⟩
  · intro hcode
    rw [← hcode] at htarget
    simpa [haccepted.differ] using CurrencyCode.sameSpelling_of_parse hsource htarget
  · intro leg hleg
    obtain ⟨_, _, cashier, hcashier, hout, hin⟩ := hcommitted.written.posted leg hleg
    exact ⟨hcommitted.written.madeFor leg hleg, hout.settles hcashier, hin.settles hcashier⟩

def smallRequest : ExchangeRequest :=
  { currencyFrom := ⟨" usd"⟩, currencyTo := ⟨"EUR"⟩, amount := hundred, date := openingDay
    user := ⟨⟨1⟩, ⟨7⟩⟩ }

theorem execute_meaning_smallRequest :
    Reachable smallBook ∧ ∃ legs s',
      Desk.execute smallRequest {} { book := smallBook } = (.ok legs, s') ∧
      s'.book = smallBook.withLegs legs ∧
      LegsBetween rateScale smallBook openingDay ⟨"USD"⟩ ⟨"EUR"⟩ ⟨"UGX"⟩ hundred
        (legs.map (·.exchange)) := by
  have hreachable : Reachable smallBook := .of_snapshot smallBook_loaded
  have hok : (Desk.execute smallRequest {} { book := smallBook }).1.isOk = true := by decide +kernel
  refine ⟨hreachable, ?_⟩
  rcases hrun : Desk.execute smallRequest {} { book := smallBook } with ⟨e | legs, s'⟩
  · rw [hrun] at hok
    cases hok
  · obtain ⟨source, target, home, hsource, htarget, -, hhome, hlegs, -, -, hbook⟩ :=
      execute_meaning (s := { book := smallBook }) hreachable rfl hrun
    have hdollar : CurrencyCode.parse smallRequest.currencyFrom.text = .ok ⟨"USD"⟩ := by rfl
    have heuro : CurrencyCode.parse smallRequest.currencyTo.text = .ok ⟨"EUR"⟩ := by rfl
    have hshilling : smallBook.homeCurrencies.map (·.code) = [⟨"UGX"⟩] := by decide +kernel
    rw [hhome, List.map_singleton, List.cons.injEq] at hshilling
    rw [Except.ok.inj (hsource.symm.trans hdollar), Except.ok.inj (htarget.symm.trans heuro),
      hshilling.1] at hlegs
    exact ⟨legs, s', rfl, hbook, hlegs⟩

end ExchangeDesk
