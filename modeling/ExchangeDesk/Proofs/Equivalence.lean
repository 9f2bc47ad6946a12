import ExchangeDesk.Proofs.Answer
import ExchangeDesk.Proofs.Ledger
import ExchangeDesk.Proofs.Untimed

/-!
# Exchanges that come to the same

With a store that answers every call, it makes no difference whether the legs of
an exchange are committed together or one by one (`execute_modes_agree`), or
whether an exchange between two other currencies is asked for as such or as one
into home currency and one out of it (`execute_cross`). Only what the clock shows
may differ. On its way an exchange leaves no home currency behind, neither in the
vault nor at the teller.
-/

namespace ExchangeDesk

open ExchangeDesk.Action

variable {env env' : Environment} {s s' t : Session} {b : Book} {request : ExchangeRequest}
  {legs : List ExecutedLeg}

/-- Two runs of an exchange give the same legs and leave the same book but for the
clock, or they give the same error. -/
def SameOutcome : Except DeskError (List ExecutedLeg) × Session →
    Except DeskError (List ExecutedLeg) × Session → Prop
  | (.ok legs, t), (.ok legs', t') =>
    legs'.map (·.untimed) = legs.map (·.untimed) ∧ t'.book.untimed = t.book.untimed ∧
      t'.sequence = t.sequence
  | (.error e, _), (.error e', _) => e' = e
  | _, _ => False

namespace Desk

-- ---------------------------------------------------------------------------
-- Ways of committing
-- ---------------------------------------------------------------------------

theorem execute_sameOutcome (hb : Reachable s.book) (h : env.Calm) (h' : env'.Calm)
    (hregistry : env.registry = []) (hregistry' : env'.registry = [])
    (hscale : env'.rateScale = env.rateScale) (hbook : s'.book = s.book)
    (hsequence : s'.sequence = s.sequence) (request : ExchangeRequest) :
    SameOutcome (execute request env s) (execute request env' s') := by
  have hanswer : answer request env' s' = answer request env s := by
    refine answer_congr hb h hregistry (hbook ▸ hb) h' hregistry' hscale ?_ ?_
    · rw [hbook]
      exact .refl _
    · rw [hbook]
  unfold answer at hanswer
  rcases hrun : execute request env s with ⟨e | legs, t⟩
  · rcases hrun' : execute request env' s' with ⟨e' | legs', t'⟩
    · rw [hrun, hrun'] at hanswer
      exact Except.error.inj hanswer
    · rw [hrun, hrun'] at hanswer
      cases hanswer
  · rcases hrun' : execute request env' s' with ⟨e' | legs', t'⟩
    · rw [hrun, hrun'] at hanswer
      cases hanswer
    · exact execute_untimed hbook hsequence (hregistry'.trans hregistry.symm) hscale hrun hrun'

/-- Where the store fails no call, an exchange has the `SameOutcome` if its legs are committed in
one unit and if they are committed one by one, by any clocks. -/
theorem execute_modes_agree (hb : Reachable s.book) (h : env.Calm) (hregistry : env.registry = [])
    (hbook : s'.book = s.book) (hsequence : s'.sequence = s.sequence) (clock : Nat → Instant)
    (request : ExchangeRequest) :
    SameOutcome (execute request { env with atomicity := .allLegs } s)
      (execute request { env with atomicity := .perLeg, clock } s') := by
  have htogether : Environment.Calm { env with atomicity := .allLegs } := h
  have heach : Environment.Calm { env with atomicity := .perLeg, clock } := h
  exact execute_sameOutcome hb htogether heach hregistry hregistry rfl hbook hsequence request

def ticking : Environment := { atomicity := .perLeg, clock := fun n => ⟨n * 1000000⟩ }

theorem execute_modes_agree_smallRequest :
    Reachable smallBook ∧ ∃ legs t legs' t',
      execute smallRequest {} { book := smallBook } = (.ok legs, t) ∧
      execute smallRequest ticking { book := smallBook } = (.ok legs', t') ∧
      legs' ≠ legs ∧ legs'.map (·.untimed) = legs.map (·.untimed) := by
  have hreachable : Reachable smallBook := .of_snapshot smallBook_loaded
  have hsame : SameOutcome (execute smallRequest {} { book := smallBook })
      (execute smallRequest ticking { book := smallBook }) :=
    @execute_modes_agree {} { book := smallBook } { book := smallBook } hreachable
      (fun _ _ => rfl) rfl rfl rfl (fun n => ⟨n * 1000000⟩) smallRequest
  have hok : (execute smallRequest {} { book := smallBook }).1.isOk = true := by decide +kernel
  have hclock : (execute smallRequest ticking { book := smallBook }).1 ≠
      (execute smallRequest {} { book := smallBook }).1 := by decide +kernel
  rcases hrun : execute smallRequest {} { book := smallBook } with ⟨e | legs, t⟩
  · rw [hrun] at hok
    cases hok
  rcases hrun' : execute smallRequest ticking { book := smallBook } with ⟨e' | legs', t'⟩
  · rw [hrun, hrun'] at hsame
    exact hsame.elim
  · rw [hrun, hrun'] at hsame hclock
    refine ⟨hreachable, legs, t, legs', t', rfl, rfl, ?_, hsame.1⟩
    rintro rfl
    exact hclock rfl

end Desk

-- ---------------------------------------------------------------------------
-- A cross exchange as two exchanges
-- ---------------------------------------------------------------------------

/-- The first half of a cross exchange, asked for by itself. -/
def ExchangeRequest.intoHome (request : ExchangeRequest) (home : CurrencyCode) : ExchangeRequest :=
  { request with currencyTo := home }

def ExchangeRequest.outOfHome (request : ExchangeRequest) (home : CurrencyCode)
    (amount : Decimal) : ExchangeRequest :=
  { request with currencyFrom := home, amount }

theorem Admissible.halves {scale : Nat} {source target : CurrencyCode} {home : Currency}
    (hb : Reachable b) (h : Admissible scale b request source target home)
    (hs : source ≠ home.code) (ht : target ≠ home.code) :
    Admissible scale b (request.intoHome home.code) source home.code home ∧
    ∃ rate taken, InForce b source .buying request.date rate ∧
      request.amount.mul rate.amount = some taken ∧ (taken.isPositive = true →
        Admissible scale b (request.outOfHome home.code taken) home.code target home) := by
  have hparses := hb.codes_parse home h.homeKnown.1
  have hroute : hops source target home.code =
      [.intoHome source home.code, .outOfHome home.code target] := by simp [hops, hs, ht]
  have hinto : hops source home.code home.code = [.intoHome source home.code] := by simp [hops]
  have hout : hops home.code target home.code = [.outOfHome home.code target] := by simp [hops, ht]
  have haccounts := h.accounts
  have hconvertible := h.convertible
  rw [hroute] at haccounts hconvertible
  obtain - | @⟨_, taken, _, _, rate, hrate, hpositive, hfits, hnext⟩ := hconvertible
  refine ⟨?_, rate, taken, hrate, hfits, fun htaken => ?_⟩
  · refine { h with
      parsesTo := hparses, differ := hs, registeredTo := ⟨home, h.homeKnown.1, rfl⟩
      convertible := ?_, accounts := ?_ }
    · rw [hinto]
      exact .cons hrate hpositive hfits .nil
    · rw [hinto]
      exact fun hop hhop => haccounts hop (List.mem_cons.mpr (.inl (List.mem_singleton.mp hhop)))
  · refine { h with
      parsesFrom := hparses, differ := ht.symm, registeredFrom := ⟨home, h.homeKnown.1, rfl⟩
      amount := htaken, convertible := ?_, accounts := ?_ }
    · rw [hout]
      exact hnext
    · rw [hout]
      exact fun hop hhop => haccounts hop (List.mem_cons_of_mem _ hhop)

theorem Book.Sound.findCurrency_eq {c : Currency} (h : b.Sound) (hc : c ∈ b.currencies) :
    b.findCurrency c.code = some c :=
  find?_key h.codes hc

theorem Accepted.halves {source target home : Currency} {way : Route} {plans : List PlannedLeg}
    (hb : Reachable b) (hregistry : env.registry = []) (hhome : home ∈ b.currencies)
    (hflag : home.isHome = true) (hs : source.code ≠ home.code) (ht : target.code ≠ home.code)
    (h : Accepted env b request source target way plans) :
    ∃ first second, plans = [first, second] ∧
      Accepted env b (request.intoHome home.code) source home .toHome [first] ∧
      (first.amountTaken.isPositive = true →
        Accepted env b (request.outOfHome home.code first.amountTaken) home target .fromHome
          [second]) := by
  obtain ⟨hsource, htarget, hfrom, hto⟩ := h.currencies hregistry
  have hparses := hb.codes_parse home hhome
  have hknown : knownCurrency env b home.code = some home := by
    rw [knownCurrency_own hregistry, hb.sound.findCurrency_eq hhome]
  have hhomes := hb.sound.home_eq hhome hflag
  have hplanned := h.planned
  cases h.routed with
  | toHome _ hflag' =>
    cases hhomes.symm.trans (hb.sound.home_eq htarget hflag')
    exact absurd rfl ht
  | fromHome hflag' =>
    cases hhomes.symm.trans (hb.sound.home_eq hsource hflag')
    exact absurd rfl hs
  | cross hflag₁ hflag₂ hone =>
    rw [flaggedCurrencies_own hregistry] at hone
    cases hhomes.symm.trans hone
    cases hplanned with
    | @cross _ first second h₁ h₂ =>
      refine ⟨first, second, rfl, ?_, fun hpositive => ?_⟩
      · refine { h with
          differ := ?_, knowsTarget := ⟨_, hparses, hknown⟩
          routed := .toHome hflag₁ hflag, planned := .toHome h₁ }
        rw [← Bool.not_eq_true]
        exact fun hsame => hs ((CurrencyCode.sameSpelling_iff hfrom hparses).mp hsame)
      · refine { h with
          differ := ?_, knowsSource := ⟨_, hparses, hknown⟩, amount := hpositive
          routed := .fromHome hflag hflag₂, planned := .fromHome h₂ }
        rw [← Bool.not_eq_true]
        exact fun hsame => ht ((CurrencyCode.sameSpelling_iff hparses hto).mp hsame).symm

namespace Desk

theorem execute_met (hb : Reachable s.book) (h : env.Calm) (hregistry : env.registry = [])
    (hmet : AllMet (conditions env.rateScale s.book request)) :
    ∃ legs t, execute request env s = (.ok legs, t) := by
  obtain ⟨legs, hok⟩ := (execute_heeds hb h hregistry request).answer_ok.mpr hmet
  exact ⟨legs, _, Prod.ext hok rfl⟩

theorem admissible_of_ok {source target home : Currency} {way : Route} {plans : List PlannedLeg}
    (hb : Reachable s.book) (h : env.Calm) (hregistry : env.registry = [])
    (hhome : home ∈ s.book.currencies) (hflag : home.isHome = true)
    (haccepted : Accepted env s.book request source target way plans)
    (hrun : execute request env s = (.ok legs, t)) :
    Admissible env.rateScale s.book request source.code target.code home := by
  have hmet := (execute_heeds hb h hregistry request).answer_ok.mp ⟨legs, by rw [hrun]⟩
  obtain ⟨_, _, home', hadmissible⟩ := (conditions_met hb.sound).mp hmet
  obtain ⟨-, -, hfrom, hto⟩ := haccepted.currencies hregistry
  cases hadmissible.parsesFrom.symm.trans hfrom
  cases hadmissible.parsesTo.symm.trans hto
  cases (hb.sound.home_eq hhome hflag).symm.trans
    (hb.sound.home_eq hadmissible.homeKnown.1 hadmissible.homeKnown.2)
  exact hadmissible

/-- Each half of a cross exchange does one of its legs. -/
theorem execute_halves {source target home : Currency} {way : Route} {first second : PlannedLeg}
    (hb : Reachable s.book) (h : env.Calm) (hregistry : env.registry = [])
    (hhome : home ∈ s.book.currencies) (hflag : home.isHome = true)
    (hs : source.code ≠ home.code) (ht : target.code ≠ home.code)
    (hrun : execute request env s = (.ok legs, t))
    (haccepted : Accepted env s.book request source target way [first, second])
    (hpositive : first.amountTaken.isPositive = true) :
    ∃ legs₁ s₁ legs₂ s₂, execute (request.intoHome home.code) env s = (.ok legs₁, s₁) ∧
      execute (request.outOfHome home.code first.amountTaken) env s₁ = (.ok legs₂, s₂) ∧
      Committed request [first] legs₁ s s₁ ∧ Committed request [second] legs₂ s₁ s₂ := by
  obtain ⟨_, _, ⟨⟩, hfirst, hsecond⟩ := haccepted.halves hb hregistry hhome hflag hs ht
  replace hsecond := hsecond hpositive
  have hadmissible := admissible_of_ok hb h hregistry hhome hflag haccepted hrun
  -- the conditions of the whole are those of its halves
  obtain ⟨hinto, rate, taken, hrate, hmul, hout⟩ := hadmissible.halves hb hs ht
  obtain rfl : taken = first.amountTaken := by
    cases hfirst.planned with
    | toHome hp =>
      cases Book.inForce_unique hrate (Book.findRateAsOf_inForce hb.sound.rateIds hp.inForce)
      exact Option.some.inj (hmul.symm.trans (convertToHome_ok.mp hp.converted).2)
  replace hinto := (conditions_met hb.sound).mpr ⟨_, _, _, hinto⟩
  replace hout := (conditions_met hb.sound).mpr ⟨_, _, _, hout hpositive⟩
  obtain ⟨legs₁, s₁, hrun₁⟩ := execute_met hb h hregistry hinto
  obtain ⟨_, _, _, _, haccepted₁, hcommitted₁⟩ := (execute_spec _).ok hrun₁
  cases hfirst.unique haccepted₁
  -- what the first half has added is no part of what the second one rests on
  have hsetup : conditions env.rateScale s₁.book = conditions env.rateScale s.book := by
    funext request
    rw [hcommitted₁.book]
    exact conditions_congr rfl rfl rfl rfl
  obtain ⟨legs₂, s₂, hrun₂⟩ := execute_met (hb.committed hcommitted₁) h hregistry (hsetup ▸ hout)
  obtain ⟨_, _, _, _, haccepted₂, hcommitted₂⟩ := (execute_spec _).ok hrun₂
  rw [hcommitted₁.book] at haccepted₂
  replace hsecond : Accepted env (s.book.withLegs legs₁) _ home target _ _ :=
    hsecond.congr rfl rfl rfl rfl
  cases hsecond.unique haccepted₂
  exact ⟨legs₁, s₁, legs₂, s₂, hrun₁, hrun₂, hcommitted₁.of_request rfl rfl rfl,
    hcommitted₂.of_request rfl rfl rfl⟩

/-- Where the store fails no call, a cross exchange has two legs. If the first takes a positive
amount, they are those of an exchange into home currency and of one out of it with that amount,
which together leave the same book but for times. In home currency the entries of both legs sum to
zero, in the vault and at the teller. -/
theorem execute_cross {source target : CurrencyCode} {home : Currency} (hb : Reachable s.book)
    (h : env.Calm) (hregistry : env.registry = []) (hhome : home ∈ s.book.currencies)
    (hflag : home.isHome = true)
    (hfrom : CurrencyCode.parse request.currencyFrom.text = .ok source)
    (hto : CurrencyCode.parse request.currencyTo.text = .ok target) (hs : source ≠ home.code)
    (ht : target ≠ home.code) (hrun : execute request env s = (.ok legs, t)) :
    ∃ first second, legs = [first, second] ∧
      (first.exchange.amountTaken.isPositive = true → ∃ leg₁ s₁ leg₂ s₂,
        execute (request.intoHome home.code) env s = (.ok [leg₁], s₁) ∧
        execute (request.outOfHome home.code first.exchange.amountTaken) env s₁ =
          (.ok [leg₂], s₂) ∧
        leg₁.untimed = first.untimed ∧ leg₂.untimed = second.untimed ∧
        s₂.book.untimed = t.book.untimed ∧ s₂.sequence = t.sequence) ∧
      ∀ activity,
        position home.code
          ((first.postings.movements ++ second.postings.movements).map (·.entryAt activity)) = 0 ∧
        ∀ leg ∈ legs,
          EntryOf s.book leg.exchange .outward activity (leg.postings.outward.entryAt activity) ∧
          EntryOf s.book leg.exchange .inward activity (leg.postings.inward.entryAt activity) := by
  obtain ⟨_, _, way, plans, haccepted, hcommitted⟩ := (execute_spec request).ok hrun
  obtain ⟨hsource, htarget, hfrom', hto'⟩ := haccepted.currencies hregistry
  cases hfrom.symm.trans hfrom'
  cases hto.symm.trans hto'
  obtain ⟨home', hhome', hlegs⟩ := legsBetween hb.sound hregistry hsource htarget haccepted.routed
    haccepted.planned hcommitted.written
  cases (hb.sound.home_eq hhome hflag).symm.trans hhome'
  obtain ⟨p₁, p₂, rfl, -, -⟩ := haccepted.halves hb hregistry hhome hflag hs ht
  obtain ⟨first, _, _, rfl, record, posted₁, hrest⟩ := hcommitted.written.cons_inv
  obtain ⟨second, _, _, rfl, -, posted₂, hrest⟩ := hrest.cons_inv
  obtain rfl := hrest.nil_inv
  refine ⟨first, second, rfl, fun hpositive => ?_, fun activity => ⟨?_, ?_⟩⟩
  · have hgiven : first.exchange.amountTaken = p₁.amountTaken := by rw [record]; rfl
    rw [hgiven] at hpositive ⊢
    obtain ⟨legs₁, s₁, legs₂, s₂, hrun₁, hrun₂, hcommitted₁, hcommitted₂⟩ :=
      execute_halves hb h hregistry hhome hflag hs ht hrun haccepted hpositive
    obtain ⟨hsame, hbook, hsequence⟩ := hcommitted.unique rfl rfl (hcommitted₁.append hcommitted₂)
    obtain ⟨leg₁, _, _, rfl, -, -, hrest₁⟩ := hcommitted₁.written.cons_inv
    obtain ⟨leg₂, _, _, rfl, -, -, hrest₂⟩ := hcommitted₂.written.cons_inv
    obtain rfl := hrest₁.nil_inv
    obtain rfl := hrest₂.nil_inv
    obtain ⟨hsame₁, hsame₂⟩ : leg₁.untimed = first.untimed ∧ leg₂.untimed = second.untimed := by
      simpa using hsame
    exact ⟨leg₁, s₁, leg₂, s₂, hrun₁, hrun₂, hsame₁, hsame₂, hbook, hsequence⟩
  · obtain ⟨hout₁, hin₁⟩ := posted₁.settles
    obtain ⟨hout₂, hin₂⟩ := posted₂.settles
    cases hlegs with
    | cross _ _ leg₁ leg₂ =>
      have hpasses := hout₁.passes hin₁ hout₂ hin₂ (leg₂.currencyFrom.trans leg₁.currencyTo.symm)
        (by rwa [leg₁.currencyFrom, leg₁.currencyTo]) (by rwa [leg₂.currencyTo, leg₁.currencyTo])
        leg₂.given activity
      rwa [leg₁.currencyTo] at hpasses
  · intro leg hleg
    obtain ⟨_, _, hposted⟩ := hcommitted.written.posted leg hleg
    exact ⟨hposted.settles.1.entryAt activity, hposted.settles.2.entryAt activity⟩

theorem execute_cross_smallRequest :
    Reachable smallBook ∧ ∃ first second t leg₁ s₁ leg₂ s₂,
      execute smallRequest {} { book := smallBook } = (.ok [first, second], t) ∧
      execute (smallRequest.intoHome ⟨"UGX"⟩) {} { book := smallBook } = (.ok [leg₁], s₁) ∧
      execute (smallRequest.outOfHome ⟨"UGX"⟩ first.exchange.amountTaken) {} s₁ =
        (.ok [leg₂], s₂) ∧
      s₂.book.untimed = t.book.untimed := by
  have hreachable : Reachable smallBook := .of_snapshot smallBook_loaded
  have hshilling : ⟨⟨"UGX"⟩, "Uganda Shilling", 0, none, none, true⟩ ∈ smallBook.currencies := by
    decide +kernel
  have hdollar : CurrencyCode.parse smallRequest.currencyFrom.text = .ok ⟨"USD"⟩ := by rfl
  have heuro : CurrencyCode.parse smallRequest.currencyTo.text = .ok ⟨"EUR"⟩ := by rfl
  have hok : (execute smallRequest {} { book := smallBook }).1.isOk = true := by decide +kernel
  have htaken : ((execute smallRequest {} { book := smallBook }).1.toOption.getD []).all
      (·.exchange.amountTaken.isPositive) = true := by decide +kernel
  refine ⟨hreachable, ?_⟩
  rcases hrun : execute smallRequest {} { book := smallBook } with ⟨e | legs, t⟩
  · rw [hrun] at hok
    cases hok
  · obtain ⟨first, second, rfl, hhalves, -⟩ := execute_cross (s := { book := smallBook })
      hreachable (fun _ _ => rfl) rfl hshilling rfl hdollar heuro (by decide) (by decide) hrun
    rw [hrun] at htaken
    obtain ⟨leg₁, s₁, leg₂, s₂, hrun₁, hrun₂, -, -, hbook, -⟩ :=
      hhalves (List.all_eq_true.mp htaken first List.mem_cons_self)
    exact ⟨first, second, t, leg₁, s₁, leg₂, s₂, rfl, hrun₁, hrun₂, hbook⟩

end Desk
end ExchangeDesk
