import ExchangeDesk.Proofs.Decimal
import ExchangeDesk.Proofs.Integrity

/-!
# Stored rates are well-formed

A rate is checked on each of three ways into a book: when a snapshot is loaded,
when it is created and when it is changed, and a change checks only the fields
that it has new values for. Each way leaves a rate that the check takes as it is
(`NewRate.validated_stable`, `Revised.stable`), so all stored rates are such after
any run, and a code that a run has set belongs to a currency of the book
(`run_storedRates`).
-/

namespace ExchangeDesk

variable {env : Environment} {s s' : Session} {b : Book} {rate valid : NewRate} {r : Rate}
  {id : RateId}

-- ---------------------------------------------------------------------------
-- Rates that pass the check as they are
-- ---------------------------------------------------------------------------

def NewRate.Stable (rate : NewRate) : Prop := rate.validated = .ok rate

theorem Decimal.round_eq_self {d : Decimal} {places : Nat} (h : d.scale ≤ places) :
    d.round places = d := dif_pos h

theorem NewRate.validated_iff : rate.validated = .ok valid ↔
    CurrencyCode.parse? rate.currency.text = some valid.currency ∧
      valid.amount = rate.amount.round rateScale ∧ valid.amount.isPositive = true ∧
      valid.date = rate.date ∧ valid.type = rate.type := by
  simp only [validated, bind_ok, CurrencyCode.parse_iff]
  constructor
  · rintro ⟨code, hcode, h⟩
    split at h
    · next hpositive =>
      cases h
      exact ⟨hcode, rfl, hpositive, rfl, rfl⟩
    · cases h
  · rintro ⟨hcode, hamount, hpositive, hdate, htype⟩
    refine ⟨valid.currency, hcode, ?_⟩
    rw [← hamount, if_pos hpositive, ← hdate, ← htype]
    rfl

theorem NewRate.stable_iff : rate.Stable ↔
    CurrencyCode.parse? rate.currency.text = some rate.currency ∧
      rate.amount.scale ≤ rateScale ∧ rate.amount.isPositive = true := by
  rw [Stable, validated_iff]
  constructor
  · rintro ⟨hcode, hamount, hpositive, -, -⟩
    exact ⟨hcode, hamount ▸ Decimal.round_scale_le _ _, hpositive⟩
  · rintro ⟨hcode, hscale, hpositive⟩
    exact ⟨hcode, (Decimal.round_eq_self hscale).symm, hpositive, rfl, rfl⟩

theorem NewRate.validated_stable (h : rate.validated = .ok valid) : valid.Stable := by
  obtain ⟨hcode, hamount, hpositive, -, -⟩ := validated_iff.mp h
  refine stable_iff.mpr ⟨CurrencyCode.parse?_text hcode, ?_, hpositive⟩
  rw [hamount]
  exact Decimal.round_scale_le _ _

-- ---------------------------------------------------------------------------
-- Changes
-- ---------------------------------------------------------------------------

/-- The check of its field has let a change pass. -/
def RateChange.Passed : RateChange → Prop
  | .currency code => CurrencyCode.parse? code.text = some code
  | .amount value => value.scale ≤ rateScale ∧ value.isPositive = true
  | .date _ | .type _ => True

namespace Rate

variable {current next : Rate} {changes : RateChanges} {applied : List RateChange}

theorem currencyChange_ok {requested changed : Option CurrencyCode}
    (h : current.currencyChange requested = .ok changed) :
    ∀ code ∈ changed, (RateChange.currency code).Passed := by
  cases requested with
  | none =>
    cases h
    simp
  | some code =>
    simp only [currencyChange, bind_ok, pure_ok, CurrencyCode.parse_iff] at h
    obtain ⟨parsed, hparse, rfl⟩ := h
    intro value hvalue
    split at hvalue
    · cases hvalue
    · cases hvalue
      exact CurrencyCode.parse?_text hparse

theorem amountChange_ok {code : CurrencyCode} {requested changed : Option Decimal}
    (h : current.amountChange code requested = .ok changed) :
    ∀ value ∈ changed, (RateChange.amount value).Passed := by
  cases requested with
  | none =>
    cases h
    simp
  | some amount =>
    simp only [amountChange] at h
    split at h
    · next hpositive =>
      cases h
      intro value hvalue
      split at hvalue
      · cases hvalue
      · cases hvalue
        exact ⟨Decimal.round_scale_le _ _, hpositive⟩
    · cases h

theorem changesOf_passed (h : current.changesOf changes = .ok applied) :
    ∀ c ∈ applied, c.Passed := by
  simp only [changesOf, bind_ok, pure_ok] at h
  obtain ⟨code, hcode, amount, hamount, rfl⟩ := h
  intro c hc
  simp only [List.flatMap_cons, List.flatMap_nil, List.append_nil, List.mem_append,
    Option.mem_toList, Option.map_eq_some_iff] at hc
  -- the changes in the order of the fields
  rcases hc with ⟨_, -, rfl⟩ | ⟨_, -, rfl⟩ | ⟨value, hvalue, rfl⟩ | ⟨value, hvalue, rfl⟩
  · trivial
  · trivial
  · exact currencyChange_ok hcode value hvalue
  · exact amountChange_ok hamount value hvalue

theorem set_stable {c : RateChange} (hr : r.Stable) (hc : c.Passed) : (r.set c).Stable := by
  obtain ⟨hcode, hamount⟩ := NewRate.stable_iff.mp hr
  cases c with
  | date => exact NewRate.stable_iff.mpr ⟨hcode, hamount⟩
  | type => exact NewRate.stable_iff.mpr ⟨hcode, hamount⟩
  | currency code => exact NewRate.stable_iff.mpr ⟨hc, hamount⟩
  | amount value => exact NewRate.stable_iff.mpr ⟨hcode, hc⟩

theorem set_currency {c : RateChange} (hc : c.isCurrency = false) :
    (r.set c).currency = r.currency := by
  cases c with
  | currency => cases hc
  | _ => rfl

theorem replay_stable (hr : r.Stable) (h : ∀ c ∈ applied, c.Passed) :
    (r.replay applied).Stable := by
  induction applied generalizing r with
  | nil => exact hr
  | cons c rest ih =>
    obtain ⟨hc, hrest⟩ := List.forall_mem_cons.mp h
    exact ih (r := r.set c) (set_stable hr hc) hrest

theorem replay_currency (h : applied.any RateChange.isCurrency = false) :
    (r.replay applied).currency = r.currency := by
  induction applied generalizing r with
  | nil => rfl
  | cons c rest ih =>
    simp only [List.any_cons, Bool.or_eq_false_iff] at h
    exact (ih (r := r.set c) h.2).trans (set_currency h.1)

end Rate

section

variable {changes : RateChanges} {current next : Rate} {applied : List RateChange}

theorem Revised.stable (h : Revised env b id changes current next applied)
    (hcurrent : current.Stable) : next.Stable := by
  obtain ⟨hchanges, hnext⟩ := Rate.apply_ok h.applies
  rw [hnext]
  exact Rate.replay_stable hcurrent (Rate.changesOf_passed hchanges)

theorem Revised.currency (h : Revised env b id changes current next applied) :
    next.currency = current.currency ∨
      ∃ currency, knownCurrency env b next.currency = some currency := by
  cases hany : applied.any RateChange.isCurrency with
  | false =>
    refine .inl ?_
    rw [(Rate.apply_ok h.applies).2]
    exact Rate.replay_currency hany
  | true => exact .inr (h.known hany)

end

-- ---------------------------------------------------------------------------
-- Runs
-- ---------------------------------------------------------------------------

theorem Book.ofSnapshot_stable {snapshot : Snapshot} (h : ofSnapshot snapshot = .ok b) :
    ∀ r ∈ b.rates, r.Stable := by
  refine ofSnapshot_invariant (I := fun b => ∀ r ∈ b.rates, r.Stable) ?_ ?_ ?_ ?_
    (by simp [empty]) h
  · intro b c b' hb hc
    obtain ⟨code, -, -, -, rfl⟩ := addCurrency_ok hc
    exact hb
  · intro b rate b' hb hr
    obtain ⟨valid, hvalid, rfl⟩ := loadRate_ok hr
    exact List.forall_mem_append.mpr
      ⟨hb, List.forall_mem_singleton.mpr (NewRate.validated_stable hvalid)⟩
  · intro b c b' hb hc
    obtain ⟨-, rfl⟩ := addCashier_ok hc
    exact hb
  · intro b a b' hb ha
    obtain ⟨currency, -, -, rfl⟩ := addAccount_ok ha
    exact hb

/-- All that an operation can do to the rates of a book: keep them, add one that was
checked, or put a change in the place of one. -/
theorem Effect.rates (h : Effect env s s') : s'.book.rates = s.book.rates ∨
    (∃ (rate valid : NewRate) (currency : Currency), rate.validated = .ok valid ∧
      knownCurrency env s.book valid.currency = some currency ∧
      s'.book.rates = (s.book.insertRate valid).2.rates) ∨
    ∃ (id : RateId) (changes : RateChanges) (current next : Rate) (applied : List RateChange),
      Revised env s.book id changes current next applied ∧
        s'.book.rates = (s.book.putRate next).rates := by
  cases h with
  | spared h => exact .inl (by rw [h.records])
  | exchanged _ hcommitted hdrawn =>
    obtain ⟨n, -, hbook⟩ := hdrawn
    refine .inl ?_
    rw [hbook, hcommitted.book]
    rfl
  | corrected _ hbook =>
    refine .inl ?_
    rw [hbook]
    rfl
  | deleted hbook =>
    refine .inl ?_
    rw [hbook]
    rfl
  | created hvalid hknown hbook =>
    exact .inr (.inl ⟨_, _, _, hvalid, hknown, by rw [hbook]⟩)
  | revised hrevision hbook => exact .inr (.inr ⟨_, _, _, _, _, hrevision, by rw [hbook]⟩)

theorem Effect.rate_cases (h : Effect env s s') (hr : r ∈ s'.book.rates) : r ∈ s.book.rates ∨
    (∃ (rate : NewRate) (currency : Currency), rate.validated = .ok r.toNewRate ∧
      knownCurrency env s.book r.currency = some currency) ∨
    ∃ (changes : RateChanges) (current : Rate) (applied : List RateChange),
      Revised env s.book r.id changes current r applied := by
  rcases h.rates with hrates | ⟨rate, valid, currency, hvalid, hknown, hrates⟩ |
    ⟨id, changes, current, next, applied, hrevision, hrates⟩
  · exact .inl (hrates ▸ hr)
  · rw [hrates] at hr
    rcases List.mem_append.mp hr with hr | hr
    · exact .inl hr
    · obtain rfl := List.mem_singleton.mp hr
      exact .inr (.inl ⟨rate, currency, hvalid, hknown⟩)
  · rw [hrates] at hr
    obtain ⟨r₀, hr₀, rfl⟩ := List.mem_map.mp hr
    split
    · rw [hrevision.id_eq.2]
      exact .inr (.inr ⟨changes, current, applied, hrevision⟩)
    · exact .inl hr₀

theorem Effect.stable (hs : ∀ r ∈ s.book.rates, r.Stable) (h : Effect env s s') :
    ∀ r ∈ s'.book.rates, r.Stable := by
  intro r hr
  rcases h.rate_cases hr with hr | ⟨rate, -, hvalid, -⟩ |
    ⟨changes, current, applied, hrevision⟩
  · exact hs r hr
  · exact NewRate.validated_stable hvalid
  · exact hrevision.stable (hs current (List.mem_of_find?_eq_some hrevision.found))

theorem Effect.rate_known (h : Effect env s s') (hr : r ∈ s'.book.rates) :
    (∃ r₀ ∈ s.book.rates, r₀.id = r.id ∧ r₀.currency = r.currency) ∨
      ∃ currency, knownCurrency env s.book r.currency = some currency := by
  rcases h.rate_cases hr with hr | ⟨-, currency, -, hknown⟩ |
    ⟨changes, current, applied, hrevision⟩
  · exact .inl ⟨r, hr, rfl, rfl⟩
  · exact .inr ⟨currency, hknown⟩
  · rcases hrevision.currency with hkept | hknown
    · exact .inl ⟨current, List.mem_of_find?_eq_some hrevision.found, hrevision.id_eq.1, hkept.symm⟩
    · exact .inr hknown

def Book.rateCode? (b : Book) (id : RateId) : Option CurrencyCode :=
  (b.findRate id).map (·.currency)

/-- The operation stores the rate or gives it another code. -/
def Operation.SetsCode (op : Operation) (env : Environment) (s : Session) (id : RateId) : Prop :=
  (op.after env s).book.rateCode? id ≠ s.book.rateCode? id

theorem Book.Sound.rateCode_eq (h : b.Sound) (hr : r ∈ b.rates) :
    b.rateCode? r.id = some r.currency := by
  rw [rateCode?, findRate, find?_key h.rateIds hr]
  rfl

theorem Operation.SetsCode.known {op : Operation} (hset : op.SetsCode env s r.id)
    (hs : s.book.Sound) (hs' : (op.after env s).book.Sound)
    (hr : r ∈ (op.after env s).book.rates) :
    ∃ currency, knownCurrency env s.book r.currency = some currency := by
  rcases (op.after_effect env s).rate_known hr with ⟨r₀, hr₀, hid₀, hcode⟩ | hknown
  · refine absurd ?_ hset
    rw [hs'.rateCode_eq hr, ← hid₀, hs.rateCode_eq hr₀, hcode]
  · exact hknown

theorem Effect.known_registered {code : CurrencyCode} (h : Effect env s s')
    (hregistry : env.registry = [])
    (hknown : ∃ currency, knownCurrency env s.book code = some currency) :
    s'.book.Registers code := by
  rw [Book.Registers, h.setup.currencies]
  exact knownCurrency_registered hregistry hknown

theorem run_registered (tasks : List (Environment × Operation))
    (hown : ∀ task ∈ tasks, task.1.registry = [])
    (h : ∀ r ∈ s.book.rates, r.id = id → s.book.Registers r.currency) :
    ∀ r ∈ (run tasks s).book.rates, r.id = id → (run tasks s).book.Registers r.currency := by
  refine run_invariant_where (C := fun env => env.registry = [])
    (I := fun s => ∀ r ∈ s.book.rates, r.id = id → s.book.Registers r.currency) ?_ tasks hown h
  intro env s s' hregistry hs heffect r hr hid
  rcases heffect.rate_known hr with ⟨r₀, hr₀, hid₀, hcode⟩ | hknown
  · rw [Book.Registers, heffect.setup.currencies, ← hcode]
    exact hs r₀ hr₀ (hid₀.trans hid)
  · exact heffect.known_registered hregistry hknown

theorem run_rateIds (tasks : List (Environment × Operation)) (s : Session) :
    s.book.rates.map (·.id) <+: (run tasks s).book.rates.map (·.id) := by
  induction tasks generalizing s with
  | nil => exact List.prefix_rfl
  | cons task rest ih =>
    obtain ⟨env, op⟩ := task
    exact (op.after_effect env s).rateIds.trans (ih _)

/-- A stored rate is in order: three capital letters as its code, an amount above zero
with six fraction digits at most, and a number of its own. -/
structure Rate.WellFormed (b : Book) (r : Rate) : Prop where
  normal : r.currency.IsNormal
  positive : Decimal.zero < r.amount
  places : r.amount.scale ≤ 6
  keyed : ∀ id, b.findRate id = some r ↔ id = r.id

theorem Decimal.zero_lt_of_isPositive {d : Decimal} (h : d.isPositive = true) : zero < d := by
  obtain ⟨hn, hm⟩ := isPositive_iff.mp h
  have hsigned : d.signed = d.mantissa := by simp [signed, hn]
  show zero.signed * (tenTo d.scale : Int) < d.signed * (tenTo zero.scale : Int)
  rw [hsigned]
  have hzero : zero.signed = 0 := rfl
  have hunit : (tenTo zero.scale : Int) = 1 := rfl
  rw [hzero, hunit]
  omega

theorem Rate.wellFormed_of_stable (hb : b.Sound) (hr : r ∈ b.rates) (h : r.Stable) :
    r.WellFormed b := by
  obtain ⟨hcode, hscale, hpositive⟩ := NewRate.stable_iff.mp h
  refine ⟨CurrencyCode.parse?_isNormal hcode, Decimal.zero_lt_of_isPositive hpositive, hscale,
    fun id => ⟨fun hfound => ?_, ?_⟩⟩
  · simpa [eq_comm] using List.find?_some hfound
  · rintro rfl
    exact find?_key hb.rateIds hr

/-- After any run from a loaded book every rate is `WellFormed`, and `validated` returns it
unchanged. The code that an operation gives a rate (`SetsCode`) is one that the desk knows; at desks
without a registry it is one of the book, and so is every later code of the rate. No rate is
removed. -/
theorem run_storedRates {snapshot : Snapshot} (hload : Book.ofSnapshot snapshot = .ok s.book)
    (tasks : List (Environment × Operation)) :
    (∀ r ∈ (run tasks s).book.rates,
      r.WellFormed (run tasks s).book ∧ r.toNewRate.validated = .ok r.toNewRate) ∧
    (∀ (env : Environment) (op : Operation), ∀ r ∈ (op.after env (run tasks s)).book.rates,
      op.SetsCode env (run tasks s) r.id →
        (∃ currency, knownCurrency env (run tasks s).book r.currency = some currency) ∧
        ∀ later : List (Environment × Operation), env.registry = [] →
          (∀ task ∈ later, task.1.registry = []) →
          ∀ r' ∈ (run (tasks ++ (env, op) :: later) s).book.rates, r'.id = r.id →
            (run (tasks ++ (env, op) :: later) s).book.Registers r'.currency) ∧
    ∀ later, (run tasks s).book.rates.map (·.id) <+:
      (run (tasks ++ later) s).book.rates.map (·.id) := by
  have hreachable : Reachable (run tasks s).book := (Reachable.of_snapshot hload).run tasks
  refine ⟨fun r hr => ?_, fun env op r hr hset => ?_, fun later => ?_⟩
  · have hstable : ∀ r ∈ (run tasks s).book.rates, r.Stable :=
      run_invariant (I := fun s => ∀ r ∈ s.book.rates, r.Stable)
        (fun _ _ _ hs h => h.stable hs) tasks (Book.ofSnapshot_stable hload)
    exact ⟨Rate.wellFormed_of_stable hreachable.sound hr (hstable r hr), hstable r hr⟩
  · have heffect := op.after_effect env (run tasks s)
    have hsound := (hreachable.effect heffect).sound
    have hknown := hset.known hreachable.sound hsound hr
    refine ⟨hknown, fun later hregistry hlater => ?_⟩
    rw [run_append]
    refine run_registered (s := op.after env (run tasks s)) later hlater fun r' hr' hid => ?_
    -- numbers are unique, so this is the rate whose code was set
    obtain rfl : r' = r := List.inj_on_of_nodup_map hsound.rateIds hr' hr hid
    exact heffect.known_registered hregistry hknown
  · rw [run_append]
    exact run_rateIds later _

def looseRate : Environment × Operation :=
  ({}, .createRate ⟨openingDay, .buying, ⟨" usd "⟩, ⟨false, 36601234565, 7, by decide, by decide⟩⟩)

/-- A change of currency that is refused, a rate that rounds to zero and one that the
store does not take. -/
def refusedRates : List (Environment × Operation) :=
  [({}, .updateRate ⟨5⟩ { currency := some ⟨"GBP"⟩ }),
    ({}, .createRate ⟨openingDay, .buying, ⟨"USD"⟩, ⟨false, 4, 7, by decide, by decide⟩⟩),
    ({ faults := fun call _ => if call = .insertRate then some (.unavailable "offline") else none },
      .createRate ⟨openingDay, .buying, ⟨"USD"⟩, .whole 3675⟩)]

theorem run_storedRates_looseRate :
    let euros : Operation := .updateRate ⟨5⟩ { currency := some ⟨"eur"⟩ }
    let final := run ([looseRate] ++ ({}, euros) :: refusedRates) { book := smallBook }
    final.book.rates.map (fun r => (r.currency.text, r.amount.mantissa, r.amount.scale)) =
        [("USD", 3650, 0), ("USD", 3700, 0), ("EUR", 4000, 0), ("EUR", 4100, 0),
          ("EUR", 3660123456, 6)] ∧
      euros.SetsCode {} (run [looseRate] { book := smallBook }) ⟨5⟩ ∧
      (∀ r ∈ final.book.rates, r.WellFormed final.book ∧ r.toNewRate.validated = .ok r.toNewRate) ∧
      ∀ r ∈ final.book.rates, r.id = ⟨5⟩ → final.book.Registers r.currency := by
  intro euros final
  have hrates := run_storedRates (s := { book := smallBook }) smallBook_loaded
  have hset : euros.SetsCode {} (run [looseRate] { book := smallBook }) ⟨5⟩ := by
    unfold Operation.SetsCode
    decide +kernel
  have hstored : ∃ r ∈ (euros.after {} (run [looseRate] { book := smallBook })).book.rates,
      r.id = ⟨5⟩ := by decide +kernel
  refine ⟨by decide +kernel, hset, (hrates _).1, fun r hr hid => ?_⟩
  obtain ⟨r₀, hr₀, hid₀⟩ := hstored
  exact ((hrates [looseRate]).2.1 {} euros r₀ hr₀ (hid₀ ▸ hset)).2 refusedRates rfl
    (by simp [refusedRates]) r hr (hid.trans hid₀.symm)

end ExchangeDesk
