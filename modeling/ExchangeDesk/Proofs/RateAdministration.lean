import ExchangeDesk.Proofs.Corrections
import ExchangeDesk.Proofs.Granted
import ExchangeDesk.Proofs.StoredRates
import ExchangeDesk.Proofs.Value

/-!
# Rates that are created or changed

A change of a rate takes the values that differ, codes in their normal form and amounts at six
digits, and lists just these (`Rate.apply_iff`). At the desk it changes one rate in its place, and
making it again changes nothing; a new rate is added behind the others (`rates_local`).
-/

namespace ExchangeDesk

open ExchangeDesk.Action

-- ---------------------------------------------------------------------------
-- Changes of one rate
-- ---------------------------------------------------------------------------

structure RateChanges.Valid (changes : RateChanges) : Prop where
  currency : ∀ code ∈ changes.currency, ∃ normal, CurrencyCode.parse code.text = .ok normal
  amount : ∀ amount ∈ changes.amount, (amount.round rateScale).isPositive = true

def RateChanges.normal (changes : RateChanges) : RateChanges :=
  { changes with
    currency := changes.currency.bind fun code => CurrencyCode.parse? code.text
    amount := changes.amount.map fun amount => amount.round rateScale }

namespace Rate

variable {r old new next : Rate} {changes : RateChanges} {applied : List RateChange}

/-- The rate with the values of a change, where these differ. -/
def patched (r : Rate) (changes : RateChanges) : Rate :=
  { r with
    date := valueAfter r.date changes.date
    type := valueAfter r.type changes.type
    currency := valueAfter r.currency changes.currency
    amount := valueAfter r.amount changes.amount }

def values (r : Rate) : List RateChange :=
  [.date r.date, .type r.type, .currency r.currency, .amount r.amount]

def holds (r : Rate) : RateChange → Bool
  | .date value => value == r.date
  | .type value => value == r.type
  | .currency value => value == r.currency
  | .amount value => value == r.amount

def differences (old new : Rate) : List RateChange := new.values.filter (!old.holds ·)

def requested (r : Rate) (changes : RateChanges) : List (Option RateChange) :=
  [(differing r.date changes.date).map .date, (differing r.type changes.type).map .type,
    (differing r.currency changes.currency).map .currency,
    (differing r.amount changes.amount).map .amount]

theorem requested_differences : (r.requested changes).flatMap Option.toList =
    r.differences (r.patched changes) := by
  have hrequested : r.requested changes =
      (r.patched changes).values.map (Option.guard (!r.holds ·)) := by
    rw [requested]
    repeat rw [differing_map r.holds fun _ => rfl]
    rfl
  rw [hrequested, flatMap_guard, differences]

theorem differences_self (r : Rate) : r.differences r = [] := by
  simp [differences, values, holds]

theorem patched_patched : (r.patched changes).patched changes = r.patched changes := by
  simp only [patched, valueAfter_valueAfter]

theorem replay_requested : r.replay ((r.requested changes).flatMap Option.toList) =
    r.patched changes := by
  simp only [replay, requested, List.flatMap_cons, List.flatMap_nil, List.append_nil,
    List.foldl_append]
  rw [foldl_toList set .date (·.date) fun _ => rfl, foldl_toList set .type (·.type) fun _ => rfl,
    foldl_toList set .currency (·.currency) fun _ => rfl,
    foldl_toList set .amount (·.amount) fun _ => rfl]
  rfl

theorem currencyChange_iff {asked changed : Option CurrencyCode} :
    r.currencyChange asked = .ok changed ↔
      (∀ c ∈ asked, ∃ normal, CurrencyCode.parse c.text = .ok normal) ∧
        changed = differing r.currency (asked.bind fun c => CurrencyCode.parse? c.text) := by
  rw [← Exchange.codeChange_iff]
  cases asked with
  | none => rfl
  | some c => rfl

theorem amountChange_iff {code : CurrencyCode} {asked changed : Option Decimal} :
    r.amountChange code asked = .ok changed ↔
      (∀ a ∈ asked, (a.round rateScale).isPositive = true) ∧
        changed = differing r.amount (asked.map fun a => a.round rateScale) := by
  cases asked with
  | none => exact Exchange.unasked_ok nofun
  | some a =>
    have hkept : (if a.round rateScale == r.amount then none else some (a.round rateScale)) =
        differing r.amount (some (a.round rateScale)) := rfl
    by_cases hpositive : (a.round rateScale).isPositive
    · simp [amountChange, hpositive, hkept, @eq_comm _ changed]
    · simp [amountChange, hpositive]

theorem changesOf_iff : r.changesOf changes = .ok applied ↔
    changes.Valid ∧ applied = (r.requested changes.normal).flatMap Option.toList := by
  simp only [changesOf, bind_ok, pure_ok, currencyChange_iff, amountChange_iff, filter_ne]
  constructor
  · rintro ⟨_, ⟨hcurrency, rfl⟩, _, ⟨hamount, rfl⟩, rfl⟩
    exact ⟨⟨hcurrency, hamount⟩, rfl⟩
  · rintro ⟨h, rfl⟩
    exact ⟨_, ⟨h.currency, rfl⟩, _, ⟨h.amount, rfl⟩, rfl⟩

theorem apply_iff : r.apply changes = .ok (next, applied) ↔
    changes.Valid ∧ next = r.patched changes.normal ∧ applied = r.differences next := by
  simp only [apply, bind_ok, pure_ok, changesOf_iff, Prod.mk.injEq]
  constructor
  · rintro ⟨_, ⟨hvalid, rfl⟩, rfl, rfl⟩
    rw [replay_requested]
    exact ⟨hvalid, rfl, requested_differences⟩
  · rintro ⟨hvalid, rfl, rfl⟩
    exact ⟨_, ⟨hvalid, rfl⟩, replay_requested, requested_differences⟩

theorem apply_again (h : r.apply changes = .ok (next, applied)) :
    next.apply changes = .ok (next, []) := by
  obtain ⟨hvalid, rfl, -⟩ := apply_iff.mp h
  exact apply_iff.mpr ⟨hvalid, patched_patched.symm, (differences_self _).symm⟩

theorem patched_amount {amount : Decimal} (h : changes.amount = some amount) : ∃ m : ℤ,
    Nearest (amount.value * 10 ^ rateScale) m ∧
      (r.patched changes.normal).amount.value * 10 ^ rateScale = m := by
  obtain ⟨m, hnearest, hround⟩ := amount.round_nearest rateScale
  refine ⟨m, hnearest, ?_⟩
  rw [← hround]
  congr 1
  show (valueAfter r.amount (changes.amount.map fun amount => amount.round rateScale)).value = _
  rw [h, Option.map_some, valueAfter, differing]
  split
  · next hsame => exact (Decimal.beq_iff_value.mp hsame).symm
  · rfl

end Rate

-- ---------------------------------------------------------------------------
-- The desk
-- ---------------------------------------------------------------------------

def revisionCalls : List RateChange → List StoreCall
  | [] => [.findRate]
  | c :: rest => .findRate ::
    ((if (c :: rest).any RateChange.isCurrency then [.findCurrency] else []) ++ [.replaceRate])

def revisionLine (id : RateId) (applied : List RateChange) : LogLine :=
  let fields := ", ".intercalate (applied.map RateChange.field)
  ⟨.info, .rates, s!"exchange rate {id} updated ({fields})"⟩

def Session.revised (s : Session) (id : RateId) (next : Rate) (applied : List RateChange) :
    Session :=
  if applied = [] then s.called [.findRate]
  else { s.called (revisionCalls applied) with
    book := s.book.putRate next
    log := s.log ++ [revisionLine id applied] }

theorem Session.revised_calls {s : Session} {id : RateId} {next : Rate}
    {applied : List RateChange} :
    (s.revised id next applied).calls = s.calls ++ revisionCalls applied := by
  cases applied with
  | nil => rfl
  | cons c rest => rfl

namespace Desk

variable {env : Environment} {s t : Session} {id : RateId} {changes : RateChanges}
  {applied : List RateChange}

theorem writeRate_ok {next r : Rate} {applied' : List RateChange} {text : String}
    {answer : Rate × List RateChange} {calls : List StoreCall}
    (h : s.book.findRate next.id = some r) :
    (do
      concealing .exchangeRate (Store.replaceRate next)
      note .info .rates text
      return (next, applied')) env (s.called calls) = (.ok answer, t) ↔
      env.Passes (s.calls ++ calls) [.replaceRate] ∧ (next, applied') = answer ∧
        { s.called (calls ++ [.replaceRate]) with
          book := s.book.putRate next, log := s.log ++ [⟨.info, .rates, text⟩] } = t := by
  rw [← Session.called_called]
  refine (replace_bind_ok .replaceRate (Book.replaceRate_found h)).trans ?_
  show _ ∧ (Except.ok (next, applied'), _) = _ ↔ _
  rw [Prod.mk.injEq, Except.ok.injEq]
  rfl

theorem updateRate_of_apply {current next r : Rate} {applied' : List RateChange}
    (hfound : s.book.findRate id = some current)
    (happly : current.apply changes = .ok (next, applied')) :
    updateRate id changes env s = (.ok (r, applied), t) ↔ (next, applied') = (r, applied) ∧
      (applied'.any RateChange.isCurrency →
        ∃ currency, knownCurrency env s.book next.currency = some currency) ∧
      env.Passes s.calls (revisionCalls applied') ∧ s.revised id next applied' = t := by
  have hid : current.id = id := by simpa using List.find?_some hfound
  have hnext : s.book.findRate next.id = some current := by
    rw [(Rate.apply_ok happly).2, Rate.replay_id, hid, hfound]
  rw [updateRate, (retrieveRate_grants id).run_bind_ok]
  simp only [hfound, happly, Option.some.injEq, exists_eq_left', Grants.ofExcept.run_bind_ok,
    Except.ok.injEq, Session.called_nil]
  cases applied' with
  | nil =>
    obtain rfl : next = current := (Rate.apply_ok happly).2
    show _ ∧ _ ∧ (Except.ok (next, []), s.called [.findRate]) = (.ok (r, applied), t) ↔ _
    simp [Environment.Passes, revisionCalls, Session.revised, and_assoc, and_left_comm]
  | cons c rest =>
    have hsession : s.revised id next (c :: rest) = { s.called (revisionCalls (c :: rest)) with
        book := s.book.putRate next, log := s.log ++ [revisionLine id (c :: rest)] } := rfl
    simp only [List.isEmpty_cons, Bool.false_eq_true, if_false]
    -- a new code is looked up between the two other calls
    split
    · next hcode =>
      have hcalls : revisionCalls (c :: rest) = [.findRate, .findCurrency, .replaceRate] := by
        rw [revisionCalls, if_pos hcode]
        rfl
      simp only [(requireCurrency_grants next.currency).run_bind_ok, Session.called_called,
        writeRate_ok hnext, hsession, hcalls, hcode, forall_const, exists_and_right]
      simp only [Environment.Passes, Session.called_calls, Session.called_book, List.append_assoc,
        List.cons_append, List.nil_append]
      tauto
    · next hcode =>
      have hcalls : revisionCalls (c :: rest) = [.findRate, .replaceRate] := by
        rw [revisionCalls, if_neg hcode]
        rfl
      simp only [writeRate_ok hnext, hsession, hcalls, Environment.Passes, Session.called_calls,
        List.cons_append, List.nil_append]
      tauto

theorem updateRate_ok {r : Rate} : updateRate id changes env s = (.ok (r, applied), t) ↔
    ∃ current, Revised env s.book id changes current r applied ∧
      env.Passes s.calls (revisionCalls applied) ∧ t = s.revised id r applied := by
  constructor
  · intro h
    obtain ⟨current, hrevised, -⟩ := (updateRate_spec id changes).ok h
    obtain ⟨-, -, hcalls, rfl⟩ := (updateRate_of_apply hrevised.found hrevised.applies).mp h
    exact ⟨current, hrevised, hcalls, rfl⟩
  · rintro ⟨current, hrevised, hcalls, rfl⟩
    exact (updateRate_of_apply hrevised.found hrevised.applies).mpr
      ⟨rfl, hrevised.known, hcalls, rfl⟩

theorem revised_place {current next : Rate} (hb : Reachable s.book)
    (h : Revised env s.book id changes current next applied) : ∃ before after,
      s.book.rates = before ++ current :: after ∧ current.id = id ∧
      (s.revised id next applied).book = { s.book with rates := before ++ next :: after } ∧
      (s.revised id next applied).book.findRate id = some next := by
  obtain ⟨before, after, hplace, hid, hothers⟩ := exists_place_of_find? hb.sound.rateIds h.found
  have hnext : next.id = id := h.id_eq.2
  have hbook : (s.revised id next applied).book =
      { s.book with rates := before ++ next :: after } := by
    cases applied with
    | nil =>
      obtain rfl : next = current := (Rate.apply_ok h.applies).2
      rw [← hplace]
      rfl
    | cons c rest =>
      show s.book.putRate next = _
      rw [Book.putRate, hplace, hnext, map_at_key hid hothers]
  refine ⟨before, after, hplace, hid, hbook, ?_⟩
  rw [hbook]
  exact find?_at_key hnext hothers

theorem updateRate_again {r : Rate} (hfound : s.book.findRate id = some r)
    (happly : r.apply changes = .ok (r, [])) (hcall : env.Passes s.calls [.findRate]) :
    updateRate id changes env s = (.ok (r, []), s.called [.findRate]) :=
  updateRate_ok.mpr ⟨r, ⟨hfound, happly, by simp⟩, hcall, rfl⟩

/-- A change of a rate succeeds exactly if the rate is stored and takes it, a new code is known and
the calls get through (`Passes`). It puts the `patched` rate in its place, an amount rounded to six
digits (`Nearest`), and made again it changes and writes nothing. A created rate comes last, with a
greater number than all others. An error of either leaves the book as it was. -/
theorem rates_local (hb : Reachable s.book) (env : Environment) (id : RateId)
    (changes : RateChanges) (rate : NewRate) :
    (∀ r applied, (∃ t, updateRate id changes env s = (.ok (r, applied), t)) ↔
      ∃ current, s.book.findRate id = some current ∧
        current.apply changes = .ok (r, applied) ∧
        (applied.any RateChange.isCurrency →
          ∃ currency, knownCurrency env s.book r.currency = some currency) ∧
        env.Passes s.calls (revisionCalls applied)) ∧
    (∀ r applied t, updateRate id changes env s = (.ok (r, applied), t) →
      ∃ current before after, s.book.rates = before ++ current :: after ∧ current.id = id ∧
        r = current.patched changes.normal ∧ applied = current.differences r ∧
        (∀ amount, changes.amount = some amount → ∃ m : ℤ,
          Nearest (amount.value * 10 ^ rateScale) m ∧ r.amount.value * 10 ^ rateScale = m) ∧
        t.book = { s.book with rates := before ++ r :: after } ∧
        t.book.findRate id = some r ∧ t.calls = s.calls ++ revisionCalls applied ∧
        (applied = [] → t = s.called [.findRate]) ∧
        ∀ env', env'.Passes t.calls [.findRate] →
          updateRate id changes env' t = (.ok (r, []), t.called [.findRate])) ∧
    (∀ e t, updateRate id changes env s = (.error e, t) → t.book = s.book) ∧
    (∀ stored t, createRate rate env s = (.ok stored, t) →
      rate.validated = .ok stored.toNewRate ∧
      t.book = { s.book with
        rates := s.book.rates ++ [stored], nextRate := s.book.nextRate + 1 } ∧
      ∀ r ∈ s.book.rates, r.id.number < stored.id.number) ∧
    ∀ e t, createRate rate env s = (.error e, t) → t.book = s.book := by
  refine ⟨fun r applied => ?_, fun r applied t h => ?_, fun e t h => ?_, fun stored t h => ?_,
    fun e t h => ((createRate_spec rate).error h).book⟩
  · constructor
    · rintro ⟨t, h⟩
      obtain ⟨current, hrevised, hcalls, -⟩ := updateRate_ok.mp h
      exact ⟨current, hrevised.found, hrevised.applies, hrevised.known, hcalls⟩
    · rintro ⟨current, hfound, happly, hknown, hcalls⟩
      exact ⟨_, updateRate_ok.mpr ⟨current, ⟨hfound, happly, hknown⟩, hcalls, rfl⟩⟩
  · obtain ⟨current, hrevised, hcalls, rfl⟩ := updateRate_ok.mp h
    obtain ⟨before, after, hplace, hid, hbook, hfound⟩ := revised_place hb hrevised
    obtain ⟨-, hr, happlied⟩ := Rate.apply_iff.mp hrevised.applies
    refine ⟨current, before, after, hplace, hid, hr, happlied, ?_, hbook, hfound,
      Session.revised_calls, ?_, ?_⟩
    · rw [hr]
      exact fun amount hamount => Rate.patched_amount hamount
    · rintro rfl
      rfl
    · exact fun env' => updateRate_again hfound (Rate.apply_again hrevised.applies)
  · exact ((updateRate_spec id changes).error h).book
  · obtain ⟨valid, _, hvalid, -, rfl, hagrees⟩ := (createRate_spec rate).ok h
    exact ⟨hvalid, hagrees.book, hb.sound.rateNumbers⟩

/-- The other side of a rate, at an amount that is the stored one at six digits. -/
def otherSide : RateChanges :=
  { type := some .selling, currency := some ⟨" usd"⟩
    amount := Decimal.ofParts? false 36500000004 7 }

def withoutRateWrites : Environment :=
  { faults := fun call _ => if call = .replaceRate then some (.unavailable "offline") else none }

theorem rates_local_otherSide : Reachable smallBook ∧
    ∃ r t, updateRate ⟨1⟩ otherSide {} { book := smallBook } = (.ok (r, [.type .selling]), t) ∧
      t.book.findRate ⟨1⟩ = some r ∧ t.book.exchanges = smallBook.exchanges ∧
      updateRate ⟨1⟩ otherSide withoutRateWrites t = (.ok (r, []), t.called [.findRate]) := by
  have hreachable : Reachable smallBook := .of_snapshot smallBook_loaded
  have hrecord : ∃ current ∈ smallBook.rates, smallBook.findRate ⟨1⟩ = some current ∧
      (current.apply otherSide).map Prod.snd = .ok [.type .selling] := by decide +kernel
  obtain ⟨current, -, hfound, hchanges⟩ := hrecord
  obtain ⟨hok, hplace, -⟩ := rates_local (s := { book := smallBook }) hreachable {} ⟨1⟩ otherSide
    current.toNewRate
  rcases happly : current.apply otherSide with _ | ⟨r, applied⟩
  · rw [happly] at hchanges
    cases hchanges
  · rw [happly] at hchanges
    cases hchanges
    obtain ⟨t, hrun⟩ := (hok r _).mpr
      ⟨current, hfound, happly, by simp [RateChange.isCurrency], rfl, rfl, trivial⟩
    obtain ⟨_, _, _, -, -, -, -, -, hbook, hfound, -, -, hagain⟩ := hplace r _ t hrun
    exact ⟨hreachable, r, t, hrun, hfound, by rw [hbook],
      hagain withoutRateWrites ⟨rfl, trivial⟩⟩

end Desk
end ExchangeDesk
