import ExchangeDesk.Proofs.Admission

/-!
# Stored exchanges are intact

An exchange record goes from one currency of its book into another at a rate of
the book, and keeps to the limits of its texts. An exchange stores such records.
A correction checks the fields that change, each by itself, and in the end that
the two currencies differ; this is enough to keep a record intact. So all records
are intact after any run (`run_intact`).
-/

namespace ExchangeDesk

variable {env : Environment} {s s' : Session} {b b' : Book} {request : ExchangeRequest}
  {plans : List PlannedLeg}

-- ---------------------------------------------------------------------------
-- Intact records
-- ---------------------------------------------------------------------------

def Book.Registers (b : Book) (code : CurrencyCode) : Prop := ∃ c ∈ b.currencies, c.code = code

/-- What each field of a record has to be by itself. -/
structure Exchange.Fits (b : Book) (e : Exchange) : Prop where
  currencyFrom : b.Registers e.currencyFrom
  currencyTo : b.Registers e.currencyTo
  rate : ∃ r ∈ b.rates, r.id = e.rate
  clientId : ∀ text ∈ e.client.id, text.length ≤ 50
  clientName : ∀ text ∈ e.client.name, text.length ≤ 50

structure Exchange.Sane (b : Book) (e : Exchange) : Prop extends e.Fits b where
  differ : e.currencyFrom ≠ e.currencyTo

/-- A record with valid fields and two different currencies, under codes in normal form, that is
found under its own number and no other. -/
structure Exchange.Intact (b : Book) (e : Exchange) : Prop extends e.Sane b where
  normalFrom : e.currencyFrom.IsNormal
  normalTo : e.currencyTo.IsNormal
  keyed : ∀ id, b.findExchange id = some e ↔ id = e.id

namespace Exchange

variable {e current next : Exchange}

/-- A record stays sane in a book that keeps all currencies and all rates. -/
theorem Sane.of_book (h : e.Sane b) (hcurrencies : b.currencies ⊆ b'.currencies)
    (hrates : b.rates.map (·.id) <+: b'.rates.map (·.id)) : e.Sane b' := by
  obtain ⟨⟨⟨c, hc, hfrom⟩, ⟨d, hd, hto⟩, ⟨r, hr, hid⟩, hclientId, hclientName⟩, hdiffer⟩ := h
  have hkept : e.rate ∈ b'.rates.map (·.id) := hrates.subset (hid ▸ List.mem_map_of_mem hr)
  exact ⟨⟨⟨c, hcurrencies hc, hfrom⟩, ⟨d, hcurrencies hd, hto⟩, List.mem_map.mp hkept,
    hclientId, hclientName⟩, hdiffer⟩

theorem Sane.intact (hb : Reachable b) (he : e ∈ b.exchanges) (h : e.Sane b) : e.Intact b := by
  obtain ⟨c, hc, hfrom⟩ := h.currencyFrom
  obtain ⟨d, hd, hto⟩ := h.currencyTo
  refine { h with normalFrom := ?_, normalTo := ?_, keyed := fun id => ⟨fun hfound => ?_, ?_⟩ }
  · exact hfrom ▸ hb.codes_normal c hc
  · exact hto ▸ hb.codes_normal d hd
  · simpa [eq_comm] using List.find?_some hfound
  · rintro rfl
    exact find?_key hb.drawn.distinct he

end Exchange

-- ---------------------------------------------------------------------------
-- New records
-- ---------------------------------------------------------------------------

theorem checkClientField_ok {field : ClientField} {value : Option String} {u : Unit}
    (h : checkClientField field value = .ok u) : ∀ text ∈ value, text.length ≤ 50 := by
  rintro text rfl
  simp only [checkClientField] at h
  split at h
  · cases h
  · next hshort => exact Nat.not_lt.mp hshort

/-- The leg of an accepted request goes between two different currencies of the book
at one of its rates. -/
structure PlannedLeg.Sane (b : Book) (p : PlannedLeg) : Prop where
  currencyFrom : b.Registers p.currencyFrom
  currencyTo : b.Registers p.currencyTo
  rate : p.rate ∈ b.rates
  differ : p.currencyFrom ≠ p.currencyTo

theorem Accepted.legs_sane {source target : Currency} {way : Route} (hb : b.Sound)
    (hregistry : env.registry = []) (h : Accepted env b request source target way plans) :
    ∀ p ∈ plans, p.Sane b := by
  obtain ⟨hs, ht, -, -⟩ := h.currencies hregistry
  have hinto {home : Currency} {p : PlannedLeg} {amount : Decimal} (hhome : home ∈ b.currencies)
      (hne : source.code ≠ home.code)
      (hp : p.IntoHome b request.date source.code home.code amount) : p.Sane b :=
    ⟨⟨source, hs, hp.currencyFrom.symm⟩, ⟨home, hhome, hp.currencyTo.symm⟩,
      (Book.findRateAsOf_inForce hb.rateIds hp.inForce).stored,
      by rwa [hp.currencyFrom, hp.currencyTo]⟩
  have hout {home : Currency} {p : PlannedLeg} {amount : Decimal} (hhome : home ∈ b.currencies)
      (hne : target.code ≠ home.code)
      (hp : p.OutOfHome env.rateScale b request.date home.code target.code amount) : p.Sane b :=
    ⟨⟨home, hhome, hp.currencyFrom.symm⟩, ⟨target, ht, hp.currencyTo.symm⟩,
      (Book.findRateAsOf_inForce hb.rateIds hp.inForce).stored,
      by rw [hp.currencyFrom, hp.currencyTo]; exact hne.symm⟩
  have hplanned := h.planned
  cases h.routed with
  | toHome hfrom hto =>
    obtain ⟨hp⟩ := hplanned
    exact List.forall_mem_singleton.mpr (hinto ht (hb.code_ne hs ht (by simp [hfrom, hto])) hp)
  | fromHome hfrom hto =>
    obtain - | ⟨hp⟩ := hplanned
    exact List.forall_mem_singleton.mpr (hout hs (hb.code_ne ht hs (by simp [hfrom, hto])) hp)
  | @cross home hfrom hto hhome =>
    obtain - | - | ⟨hp, hp'⟩ := hplanned
    rw [flaggedCurrencies_own hregistry] at hhome
    obtain ⟨hmem, hflag⟩ := List.mem_filter.mp (hhome ▸ List.mem_singleton_self home)
    have hne := hb.code_ne hs hmem (by simp [hfrom, hflag])
    have hne' := hb.code_ne ht hmem (by simp [hto, hflag])
    exact List.forall_mem_cons.mpr
      ⟨hinto hmem hne hp, List.forall_mem_singleton.mpr (hout hmem hne' hp')⟩

theorem Accepted.records_sane {source target : Currency} {way : Route} (hb : b.Sound)
    (hregistry : env.registry = []) (h : Accepted env b request source target way plans) :
    ∀ p ∈ plans, ∀ now id, Exchange.Sane b ⟨Desk.PlannedLeg.record p request now, id⟩ := by
  intro p hp now id
  obtain ⟨hfrom, hto, hrate, hdiffer⟩ := h.legs_sane hb hregistry p hp
  have hclient := h.client
  simp only [Client.validate, bind_ok] at hclient
  obtain ⟨_, hclientId, hclientName⟩ := hclient
  exact ⟨⟨hfrom, hto, ⟨p.rate, hrate, rfl⟩, checkClientField_ok hclientId,
    checkClientField_ok hclientName⟩, hdiffer⟩

-- ---------------------------------------------------------------------------
-- Corrections
-- ---------------------------------------------------------------------------

theorem knownCurrency_registered {code : CurrencyCode} (hregistry : env.registry = [])
    (h : ∃ currency, knownCurrency env b code = some currency) : b.Registers code := by
  obtain ⟨currency, h⟩ := h
  rw [knownCurrency_own hregistry] at h
  exact ⟨currency, Book.findCurrency_some h⟩

theorem Exchange.Fits.set {e : Exchange} {c : ExchangeChange} (he : e.Fits b)
    (hregistry : env.registry = []) (hpassed : c.Passed) (href : Referenced env b c) :
    (e.set c).Fits b := by
  cases c with
  | rate id =>
    obtain ⟨r, hr⟩ := href
    have hid : r.id = id := by simpa using List.find?_some hr
    exact { he with rate := ⟨r, List.mem_of_find?_eq_some hr, hid⟩ }
  | currencyFrom code => exact { he with currencyFrom := knownCurrency_registered hregistry href }
  | currencyTo code => exact { he with currencyTo := knownCurrency_registered hregistry href }
  | clientId value => exact { he with clientId := checkClientField_ok hpassed }
  | clientName value => exact { he with clientName := checkClientField_ok hpassed }
  | date => exact { he with }
  | amountGiven => exact { he with }
  | amountTaken => exact { he with }

theorem Corrected.sane {id : ExchangeId} {changes : ExchangeChanges} {current next : Exchange}
    {applied : List ExchangeChange} (hregistry : env.registry = []) (hcurrent : current.Sane b)
    (h : Corrected env b id changes current next applied) : next.Sane b := by
  obtain ⟨hchanges, hnext, hdiffer⟩ := Exchange.apply_ok h.applies
  refine { differ := hdiffer, toFits := ?_ }
  rw [hnext]
  -- the currencies may be equal in between, so only the fields are kept change by change
  refine Exchange.replay_invariant hcurrent.toFits fun e c hc he => ?_
  exact he.set hregistry (Exchange.changesOf_passed hchanges c hc) (h.referenced c hc)

-- ---------------------------------------------------------------------------
-- Runs
-- ---------------------------------------------------------------------------

theorem Effect.rateIds (h : Effect env s s') :
    s.book.rates.map (·.id) <+: s'.book.rates.map (·.id) := by
  have hkept (h : s'.book.rates.map (·.id) = s.book.rates.map (·.id)) :
      s.book.rates.map (·.id) <+: s'.book.rates.map (·.id) := h ▸ List.prefix_rfl
  cases h with
  | spared h => exact hkept (by rw [h.records])
  | exchanged _ hcommitted hdrawn =>
    obtain ⟨n, -, hbook⟩ := hdrawn
    refine hkept ?_
    rw [hbook, hcommitted.book]
    rfl
  | corrected _ hbook =>
    refine hkept ?_
    rw [hbook]
    rfl
  | deleted hbook =>
    refine hkept ?_
    rw [hbook]
    rfl
  | created _ _ hbook =>
    rw [hbook]
    exact Book.insertRate_ids ..
  | revised _ hbook => exact hkept (by rw [hbook, Book.putRate_ids])

theorem Effect.sane (hb : s.book.Sound) (hregistry : env.registry = [])
    (hs : ∀ e ∈ s.book.exchanges, e.Sane s.book) (h : Effect env s s') :
    ∀ e ∈ s'.book.exchanges, e.Sane s'.book := by
  intro e he
  have hcurrencies : s.book.currencies ⊆ s'.book.currencies :=
    h.setup.currencies ▸ List.Subset.refl _
  refine Exchange.Sane.of_book (b := s.book) ?_ hcurrencies h.rateIds
  -- no currency and no rate is lost, so a record can be judged by the book from before
  rcases h.quiet_or_exchanged with hquiet |
    ⟨_, _, _, _, taken, rest, legs, _, haccepted, hcommitted, ⟨n, -, hbook⟩, -⟩
  · rcases hquiet.exchanges e he with he | ⟨_, _, current, _, hcorrection⟩
    · exact hs e he
    · have hcurrent := hs current (List.mem_of_find?_eq_some hcorrection.found)
      exact hcorrection.sane hregistry hcurrent
  · rw [hbook, hcommitted.book] at he
    rcases List.mem_append.mp he with he | he
    · exact hs e he
    · obtain ⟨leg, hleg, rfl⟩ := List.mem_map.mp he
      obtain ⟨p, hp, now, id, hrecord⟩ := hcommitted.written.recorded leg hleg
      rw [hrecord]
      exact haccepted.records_sane hb hregistry p (List.mem_append_left rest hp) now id

/-- After any run from a loaded book, at desks without a registry, every stored exchange is
`Intact`. -/
theorem run_intact {snapshot : Snapshot} (hload : Book.ofSnapshot snapshot = .ok s.book)
    (tasks : List (Environment × Operation)) (hown : ∀ task ∈ tasks, task.1.registry = []) :
    ∀ e ∈ (run tasks s).book.exchanges, e.Intact (run tasks s).book := by
  have hreachable : Reachable s.book := .of_snapshot hload
  have hsane := run_invariant_where (C := fun env => env.registry = [])
    (I := fun s => Reachable s.book ∧ ∀ e ∈ s.book.exchanges, e.Sane s.book)
    (fun _ _ _ hregistry hs h => ⟨hs.1.effect h, h.sane hs.1.sound hregistry hs.2⟩) tasks hown
    ⟨hreachable, by simp [(Book.ofSnapshot_unused hload).1]⟩
  exact fun e he => (hsane.2 e he).intact hsane.1 he

/-- An exchange in two legs, the currencies of the first one swapped, a correction
that is refused, and an exchange that the store does not commit. -/
def mendedDay : List (Environment × Operation) :=
  [({}, .execute smallRequest),
    ({}, .updateExchange ⟨1⟩ { currencyFrom := some ⟨"ugx"⟩, currencyTo := some ⟨"USD"⟩ }),
    ({}, .updateExchange ⟨2⟩ { currencyTo := some ⟨"UGX"⟩ }),
    ({ faults := fun call _ => if call = .commit then some (.unavailable "offline") else none },
      .execute smallRequest)]

theorem run_intact_mendedDay :
    Book.ofSnapshot smallDesk = .ok smallBook ∧ (∀ task ∈ mendedDay, task.1.registry = []) ∧
      (run mendedDay { book := smallBook }).book.exchanges.map
        (fun e => (e.currencyFrom.text, e.currencyTo.text)) = [("UGX", "USD"), ("UGX", "EUR")] ∧
      ∀ e ∈ (run mendedDay { book := smallBook }).book.exchanges,
        e.Intact (run mendedDay { book := smallBook }).book := by
  have hown : ∀ task ∈ mendedDay, task.1.registry = [] := by simp [mendedDay]
  refine ⟨smallBook_loaded, hown, by decide +kernel, ?_⟩
  exact run_intact (s := { book := smallBook }) smallBook_loaded mendedDay hown

end ExchangeDesk
