import ExchangeDesk.Proofs.Checks
import ExchangeDesk.Proofs.Planning

/-!
# What changes of records leave behind

Rates are created and changed and exchange records are corrected and deleted in
one write each. An operation that fails changes nothing, and one that succeeds
has made its write if it had anything to change.
-/

namespace ExchangeDesk

open ExchangeDesk.Action

variable {env : Environment} {s : Session} {b : Book}

def Referenced (env : Environment) (b : Book) : ExchangeChange → Prop
  | .rate id => ∃ rate, b.findRate id = some rate
  | .currencyFrom code | .currencyTo code => ∃ currency, knownCurrency env b code = some currency
  | _ => True

/-- A correction that was made: the record it was made to, and the changes. -/
structure Corrected (env : Environment) (b : Book) (id : ExchangeId) (changes : ExchangeChanges)
    (current next : Exchange) (applied : List ExchangeChange) : Prop where
  found : b.findExchange id = some current
  applies : current.apply changes = .ok (next, applied)
  referenced : ∀ c ∈ applied, Referenced env b c

/-- A change of a rate that was made. -/
structure Revised (env : Environment) (b : Book) (id : RateId) (changes : RateChanges)
    (current next : Rate) (applied : List RateChange) : Prop where
  found : b.findRate id = some current
  applies : current.apply changes = .ok (next, applied)
  known : applied.any RateChange.isCurrency →
    ∃ currency, knownCurrency env b next.currency = some currency

/-- The check of its field has let a change pass. References are checked apart from
that. -/
def ExchangeChange.Passed : ExchangeChange → Prop
  | .clientId value => checkClientField .clientId value = .ok ()
  | .clientName value => checkClientField .clientName value = .ok ()
  | .amountGiven value => checkPositive .amountGiven value = .ok ()
  | .amountTaken value => checkPositive .amountTaken value = .ok ()
  | _ => True

def Book.putExchange (b : Book) (exchange : Exchange) : Book :=
  { b with exchanges := b.exchanges.map fun e => if e.id = exchange.id then exchange else e }

def Book.putRate (b : Book) (rate : Rate) : Book :=
  { b with rates := b.rates.map fun r => if r.id = rate.id then rate else r }

theorem Book.replaceExchange_ok {exchange : Exchange} {b' : Book}
    (h : b.replaceExchange exchange = .ok b') : b' = b.putExchange exchange := by
  unfold replaceExchange at h
  split at h
  · cases h
    rfl
  · cases h

theorem Book.replaceExchange_found {exchange e : Exchange}
    (h : b.findExchange exchange.id = some e) :
    b.replaceExchange exchange = .ok (b.putExchange exchange) := by
  simp [replaceExchange, h, putExchange]

theorem Book.replaceRate_ok {rate : Rate} {b' : Book} (h : b.replaceRate rate = .ok b') :
    b' = b.putRate rate := by
  unfold replaceRate at h
  split at h
  · cases h
    rfl
  · cases h

theorem Book.replaceRate_found {rate r : Rate} (h : b.findRate rate.id = some r) :
    b.replaceRate rate = .ok (b.putRate rate) := by
  simp [replaceRate, h, putRate]

theorem Book.deleteExchange_absent {id : ExchangeId} (h : b.findExchange id = none) :
    (b.deleteExchange id).2 = b := by
  have hkept : b.exchanges.filter (·.id ≠ id) = b.exchanges := by
    refine List.filter_eq_self.mpr fun e he => ?_
    simpa using List.find?_eq_none.mp h e he
  simp only [deleteExchange, hkept]

namespace Rate

variable {r next : Rate} {changes : RateChanges} {applied : List RateChange}

theorem apply_ok (h : r.apply changes = .ok (next, applied)) :
    r.changesOf changes = .ok applied ∧ next = r.replay applied := by
  simp only [apply, bind_ok, pure_ok, Prod.mk.injEq] at h
  obtain ⟨_, hc, rfl, rfl⟩ := h
  exact ⟨hc, rfl⟩

@[simp] theorem set_id (c : RateChange) : (r.set c).id = r.id := by
  cases c <;> rfl

@[simp] theorem replay_id (changes : List RateChange) : (r.replay changes).id = r.id := by
  induction changes generalizing r with
  | nil => rfl
  | cons c rest ih => exact (ih (r := r.set c)).trans (set_id c)

end Rate

namespace Exchange

variable {e next : Exchange} {changes : ExchangeChanges} {applied : List ExchangeChange}

theorem apply_ok (h : e.apply changes = .ok (next, applied)) :
    e.changesOf changes = .ok applied ∧ next = e.replay applied ∧
      next.currencyFrom ≠ next.currencyTo := by
  simp only [apply, bind_ok] at h
  obtain ⟨_, hc, h⟩ := h
  split at h
  · cases h
  · next hdiffer =>
    cases h
    exact ⟨hc, rfl, hdiffer⟩

@[simp] theorem set_id (c : ExchangeChange) : (e.set c).id = e.id := by
  cases c <;> rfl

@[simp] theorem replay_id (changes : List ExchangeChange) : (e.replay changes).id = e.id := by
  induction changes generalizing e with
  | nil => rfl
  | cons c rest ih => exact (ih (e := e.set c)).trans (set_id c)

theorem clientChange_ok {field : ClientField} {old : Option String}
    {requested changed : Option (Option String)}
    (h : clientChange field old requested = .ok changed) :
    ∀ value ∈ changed, checkClientField field value = .ok () := by
  cases requested with
  | none =>
    cases h
    simp
  | some text =>
    simp only [clientChange, bind_ok, pure_ok] at h
    obtain ⟨_, hcheck, rfl⟩ := h
    intro value hvalue
    split at hvalue
    · cases hvalue
    · cases hvalue
      exact hcheck

theorem positiveChange_ok {field : AmountField} {old : Decimal} {requested changed : Option Decimal}
    (h : positiveChange field old requested = .ok changed) :
    ∀ value ∈ changed, checkPositive field value = .ok () := by
  cases requested with
  | none =>
    cases h
    simp
  | some amount =>
    simp only [positiveChange, bind_ok, pure_ok] at h
    obtain ⟨_, hcheck, rfl⟩ := h
    intro value hvalue
    split at hvalue
    · cases hvalue
    · cases hvalue
      exact hcheck

theorem changesOf_passed (h : e.changesOf changes = .ok applied) : ∀ c ∈ applied, c.Passed := by
  simp only [changesOf, bind_ok, pure_ok] at h
  obtain ⟨_, -, _, -, id, hid, name, hname, given, hgiven, taken, htaken, rfl⟩ := h
  intro c hc
  simp only [List.flatMap_cons, List.flatMap_nil, List.append_nil, List.mem_append,
    Option.mem_toList, Option.map_eq_some_iff] at hc
  -- the changes in the order of the fields
  rcases hc with ⟨_, -, rfl⟩ | ⟨_, -, rfl⟩ | ⟨_, -, rfl⟩ | ⟨value, hvalue, rfl⟩ |
    ⟨value, hvalue, rfl⟩ | ⟨_, -, rfl⟩ | ⟨value, hvalue, rfl⟩ | ⟨value, hvalue, rfl⟩
  · trivial
  · trivial
  · trivial
  · exact clientChange_ok hid value hvalue
  · exact clientChange_ok hname value hvalue
  · trivial
  · exact positiveChange_ok hgiven value hvalue
  · exact positiveChange_ok htaken value hvalue

theorem replay_invariant {P : Exchange → Prop} (he : P e)
    (step : ∀ e, ∀ c ∈ applied, P e → P (e.set c)) : P (e.replay applied) := by
  induction applied generalizing e with
  | nil => exact he
  | cons c rest ih =>
    have hset : P (e.set c) := step e c List.mem_cons_self he
    exact ih hset fun e c hc => step e c (List.mem_cons_of_mem _ hc)

end Exchange

theorem Corrected.id_eq {id : ExchangeId} {changes : ExchangeChanges} {current next : Exchange}
    {applied : List ExchangeChange} (h : Corrected env b id changes current next applied) :
    current.id = id ∧ next.id = id := by
  have hid : current.id = id := by simpa using List.find?_some h.found
  refine ⟨hid, ?_⟩
  rw [(Exchange.apply_ok h.applies).2.1, Exchange.replay_id, hid]

theorem Revised.id_eq {id : RateId} {changes : RateChanges} {current next : Rate}
    {applied : List RateChange} (h : Revised env b id changes current next applied) :
    current.id = id ∧ next.id = id := by
  have hid : current.id = id := by simpa using List.find?_some h.found
  refine ⟨hid, ?_⟩
  rw [(Rate.apply_ok h.applies).2, Rate.replay_id, hid]

namespace Desk

-- ---------------------------------------------------------------------------
-- Exchanges
-- ---------------------------------------------------------------------------

theorem retrieveExchange_reads (id : ExchangeId) :
    Reads (retrieveExchange id) env s fun e => s.book.findExchange id = some e := by
  refine Reads.bind (Store.findExchange_reads id).concealing ?_
  rintro _ s' rfl -
  exact Reads.orFail

theorem checkReference_reads (c : ExchangeChange) :
    Reads (checkReference c) env s fun _ => Referenced env s.book c := by
  cases c with
  | rate id =>
    refine Reads.bind (Store.findRate_reads id).concealing ?_
    rintro _ s' rfl -
    refine Reads.bind Reads.orFail ?_
    rintro rate s'' hrate -
    exact Reads.pure ⟨rate, hrate⟩
  | currencyFrom code =>
    refine Reads.bind (requireCurrency_reads code) ?_
    rintro currency s' hknown -
    exact Reads.pure ⟨currency, hknown⟩
  | currencyTo code =>
    refine Reads.bind (requireCurrency_reads code) ?_
    rintro currency s' hknown -
    exact Reads.pure ⟨currency, hknown⟩
  | clientId => exact Reads.pure trivial
  | clientName => exact Reads.pure trivial
  | date => exact Reads.pure trivial
  | amountGiven => exact Reads.pure trivial
  | amountTaken => exact Reads.pure trivial

theorem checkReferences_reads (changes : List ExchangeChange) :
    Reads (checkReferences changes) env s fun _ => ∀ c ∈ changes, Referenced env s.book c := by
  induction changes generalizing s with
  | nil => exact Reads.pure (by simp)
  | cons c rest ih =>
    refine Reads.bind (checkReference_reads c) ?_
    rintro _ s' hc hs
    refine Reads.mono ih ?_
    rintro _ hrest
    rw [hs.book] at hrest
    exact List.forall_mem_cons.mpr ⟨hc, hrest⟩

theorem updateExchange_spec (id : ExchangeId) (changes : ExchangeChanges) :
    Triple (updateExchange id changes) env s
      (fun applied s' => ∃ current next, Corrected env s.book id changes current next applied ∧
        if applied = [] then s.Agrees s'
        else Session.Agrees { s with book := s.book.putExchange next } s')
      (fun _ s' => s.Agrees s') := by
  refine Reads.before (.refl s) (retrieveExchange_reads id) (fun _ _ h => h) ?_
  rintro current s₁ hfound h₁
  refine Reads.before h₁ Reads.ofExcept (fun _ _ h => h) ?_
  rintro ⟨next, applied⟩ s₂ happly h₂
  cases applied with
  | nil => exact Triple.pure ⟨current, next, ⟨hfound, happly, by simp⟩, by simpa using h₂⟩
  | cons c rest =>
    refine Reads.before h₂ (checkReferences_reads (c :: rest)) (fun _ _ h => h) ?_
    rintro _ s₃ hreferenced h₃
    rw [h₂.book] at hreferenced
    refine Triple.seq (Store.replaceExchange_writes next).concealing (fun _ _ h => h₃.trans h) ?_
    rintro _ s₄ ⟨_, ⟨b, hb, rfl⟩, h₄⟩
    obtain rfl := Book.replaceExchange_ok hb
    rw [h₃.book] at h₄
    replace h₄ := (h₃.withBook (s.book.putExchange next)).trans h₄
    -- only the line in the log depends on what was changed
    split
    · refine h₄.note rfl fun s' h' => ?_
      exact Triple.pure ⟨current, next, ⟨hfound, happly, hreferenced⟩, by simpa using h'⟩
    · refine h₄.note rfl fun s' h' => ?_
      exact Triple.pure ⟨current, next, ⟨hfound, happly, hreferenced⟩, by simpa using h'⟩

theorem deleteExchange_spec (id : ExchangeId) :
    Triple (deleteExchange id) env s
      (fun _ s' => (s.book.findExchange id).isSome ∧
        Session.Agrees { s with book := (s.book.deleteExchange id).2 } s')
      (fun _ s' => s.Agrees s') := by
  refine Triple.bind (Store.deleteExchange_writes id).concealing ?_
  rintro found s₁ ⟨_, ⟨hfound, rfl⟩, h₁⟩
  split
  · next hsome => exact Triple.note ⟨hfound ▸ hsome, h₁.logged rfl⟩
  · next hnone =>
    refine Triple.fail ?_
    rw [hfound, Option.not_isSome_iff_eq_none] at hnone
    rwa [Book.deleteExchange_absent hnone] at h₁

-- ---------------------------------------------------------------------------
-- Rates
-- ---------------------------------------------------------------------------

theorem retrieveRate_reads (id : RateId) :
    Reads (retrieveRate id) env s fun r => s.book.findRate id = some r := by
  refine Reads.bind (Store.findRate_reads id).concealing ?_
  rintro _ s' rfl -
  exact Reads.orFail

theorem createRate_spec (rate : NewRate) :
    Triple (createRate rate) env s
      (fun stored s' => ∃ valid currency, rate.validated = .ok valid ∧
        knownCurrency env s.book valid.currency = some currency ∧
        stored = (s.book.insertRate valid).1 ∧
        Session.Agrees { s with book := (s.book.insertRate valid).2 } s')
      (fun _ s' => s.Agrees s') := by
  refine Reads.before (.refl s) Reads.ofExcept (fun _ _ h => h) ?_
  rintro valid s₁ hvalid h₁
  refine Reads.before h₁ (requireCurrency_reads valid.currency) (fun _ _ h => h) ?_
  rintro currency s₂ hknown h₂
  rw [h₁.book] at hknown
  refine Triple.seq (Store.insertRate_writes valid).concealing (fun _ _ h => h₂.trans h) ?_
  rintro stored s₃ ⟨_, ⟨hstored, rfl⟩, h₃⟩
  refine (Session.Agrees.refl s₃).note rfl fun s₄ h₄ => ?_
  rw [h₂.book] at hstored h₃
  exact Triple.pure ⟨valid, currency, hvalid, hknown, hstored, (h₂.withBook _).trans (h₃.trans h₄)⟩

theorem writeRate_triple {id : RateId} {changes : RateChanges} {current next : Rate}
    {applied : List RateChange} {text : String} {s₀ : Session} (h₀ : s.Agrees s₀)
    (hrevised : Revised env s.book id changes current next applied) (hne : applied ≠ []) :
    Triple (do
      concealing .exchangeRate (Store.replaceRate next)
      note .info .rates text
      return (next, applied)) env s₀
      (fun answer s' => ∃ current, Revised env s.book id changes current answer.1 answer.2 ∧
        if answer.2 = [] then s.Agrees s'
        else Session.Agrees { s with book := s.book.putRate answer.1 } s')
      (fun _ s' => s.Agrees s') := by
  refine Triple.seq (Store.replaceRate_writes next).concealing (fun _ _ h => h₀.trans h) ?_
  rintro _ s₁ ⟨_, ⟨b, hb, rfl⟩, h₁⟩
  rw [h₀.book] at hb
  obtain rfl := Book.replaceRate_ok hb
  replace h₁ := (h₀.withBook (s.book.putRate next)).trans h₁
  refine h₁.note rfl fun s₂ h₂ => ?_
  exact Triple.pure ⟨current, hrevised, by simpa [hne] using h₂⟩

theorem updateRate_spec (id : RateId) (changes : RateChanges) :
    Triple (updateRate id changes) env s
      (fun answer s' => ∃ current, Revised env s.book id changes current answer.1 answer.2 ∧
        if answer.2 = [] then s.Agrees s'
        else Session.Agrees { s with book := s.book.putRate answer.1 } s')
      (fun _ s' => s.Agrees s') := by
  refine Reads.before (.refl s) (retrieveRate_reads id) (fun _ _ h => h) ?_
  rintro current s₁ hfound h₁
  refine Reads.before h₁ Reads.ofExcept (fun _ _ h => h) ?_
  rintro ⟨next, applied⟩ s₂ happly h₂
  cases applied with
  | nil =>
    obtain rfl : next = current := (Rate.apply_ok happly).2
    exact Triple.pure ⟨next, ⟨hfound, happly, by simp⟩, by simpa using h₂⟩
  | cons c rest =>
    simp only [List.isEmpty_cons, Bool.false_eq_true, if_false]
    split
    · refine Reads.before h₂ (requireCurrency_reads next.currency) (fun _ _ h => h) ?_
      rintro currency s₃ hknown h₃
      rw [h₂.book] at hknown
      exact writeRate_triple h₃ ⟨hfound, happly, fun _ => ⟨currency, hknown⟩⟩ (by simp)
    · next hsame =>
      exact writeRate_triple h₂ ⟨hfound, happly, fun h => absurd h hsame⟩ (by simp)

end Desk
end ExchangeDesk
