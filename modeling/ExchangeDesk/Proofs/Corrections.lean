import ExchangeDesk.Proofs.Codes
import ExchangeDesk.Proofs.Decimal
import ExchangeDesk.Proofs.Lists
import ExchangeDesk.Proofs.Records

/-!
# Corrected records

A correction names new values of some fields. `Exchange.patched` is the record with the values
that differ from the old ones, and `Exchange.differences` lists the fields in which two records
differ, in their order. Applying a correction checks its values one by one and the two currencies
in the end, and gives just these two (`Exchange.apply_iff`). So the list of changes is neither
more nor less than what happened to the record (`Exchange.apply_faithful`).
-/

namespace ExchangeDesk

-- ---------------------------------------------------------------------------
-- Values of fields
-- ---------------------------------------------------------------------------

section

variable {α : Type} {old : α} {requested : Option α}

/-- A requested value that is not the old one. -/
def differing [BEq α] (old : α) : Option α → Option α
  | some value => if value == old then none else some value
  | none => none

def valueAfter [BEq α] (old : α) (requested : Option α) : α := (differing old requested).getD old

theorem differing_valueAfter [BEq α] [ReflBEq α] :
    differing (valueAfter old requested) requested = none := by
  cases requested with
  | none => rfl
  | some value =>
    by_cases h : value == old
    · simp [valueAfter, differing, h]
    · simp [valueAfter, differing, h]

theorem valueAfter_valueAfter [BEq α] [ReflBEq α] :
    valueAfter (valueAfter old requested) requested = valueAfter old requested := by
  rw [valueAfter, differing_valueAfter]
  rfl

theorem differing_map [BEq α] [ReflBEq α] {γ : Type} {field : α → γ} (holds : γ → Bool)
    (h : ∀ v, holds (field v) = (v == old)) :
    (differing old requested).map field =
      Option.guard (!holds ·) (field (valueAfter old requested)) := by
  cases requested with
  | none => simp [differing, valueAfter, Option.guard, h]
  | some v =>
    by_cases hv : v == old
    · simp [differing, valueAfter, Option.guard, h, hv]
    · simp [differing, valueAfter, Option.guard, h, hv]

theorem filter_ne [DecidableEq α] : requested.filter (· ≠ old) = differing old requested := by
  cases requested with
  | none => rfl
  | some value => simp [Option.filter, differing]

end

-- ---------------------------------------------------------------------------
-- Corrections
-- ---------------------------------------------------------------------------

/-- Each value that is asked for passes the check of its field. -/
structure ExchangeChanges.Valid (changes : ExchangeChanges) : Prop where
  currencyFrom : ∀ code ∈ changes.currencyFrom, ∃ normal, CurrencyCode.parse code.text = .ok normal
  currencyTo : ∀ code ∈ changes.currencyTo, ∃ normal, CurrencyCode.parse code.text = .ok normal
  clientId : ∀ text, changes.clientId = some (some text) → text.length ≤ clientFieldLimit
  clientName : ∀ text, changes.clientName = some (some text) → text.length ≤ clientFieldLimit
  amountGiven : ∀ amount ∈ changes.amountGiven, amount.isPositive = true
  amountTaken : ∀ amount ∈ changes.amountTaken, amount.isPositive = true

def ExchangeChanges.normal (changes : ExchangeChanges) : ExchangeChanges :=
  { changes with
    currencyFrom := changes.currencyFrom.bind fun code => CurrencyCode.parse? code.text
    currencyTo := changes.currencyTo.bind fun code => CurrencyCode.parse? code.text }

namespace Exchange

variable {e old new next : Exchange} {changes : ExchangeChanges} {applied : List ExchangeChange}

/-- The record with the values of a correction, where these differ. -/
def patched (e : Exchange) (changes : ExchangeChanges) : Exchange :=
  { e with
    rate := valueAfter e.rate changes.rate
    currencyFrom := valueAfter e.currencyFrom changes.currencyFrom
    currencyTo := valueAfter e.currencyTo changes.currencyTo
    client.id := valueAfter e.client.id changes.clientId
    client.name := valueAfter e.client.name changes.clientName
    date := valueAfter e.date changes.date
    amountGiven := valueAfter e.amountGiven changes.amountGiven
    amountTaken := valueAfter e.amountTaken changes.amountTaken }

def values (e : Exchange) : List ExchangeChange :=
  [.rate e.rate, .currencyFrom e.currencyFrom, .currencyTo e.currencyTo, .clientId e.client.id,
    .clientName e.client.name, .date e.date, .amountGiven e.amountGiven,
    .amountTaken e.amountTaken]

/-- The record has the value already, amounts being compared as numbers. -/
def holds (e : Exchange) : ExchangeChange → Bool
  | .rate value => value == e.rate
  | .currencyFrom value => value == e.currencyFrom
  | .currencyTo value => value == e.currencyTo
  | .clientId value => value == e.client.id
  | .clientName value => value == e.client.name
  | .date value => value == e.date
  | .amountGiven value => value == e.amountGiven
  | .amountTaken value => value == e.amountTaken

/-- The values of a record that another one does not have. -/
def differences (old new : Exchange) : List ExchangeChange := new.values.filter (!old.holds ·)

def requested (e : Exchange) (changes : ExchangeChanges) : List (Option ExchangeChange) :=
  [(differing e.rate changes.rate).map .rate,
    (differing e.currencyFrom changes.currencyFrom).map .currencyFrom,
    (differing e.currencyTo changes.currencyTo).map .currencyTo,
    (differing e.client.id changes.clientId).map .clientId,
    (differing e.client.name changes.clientName).map .clientName,
    (differing e.date changes.date).map .date,
    (differing e.amountGiven changes.amountGiven).map .amountGiven,
    (differing e.amountTaken changes.amountTaken).map .amountTaken]

-- ---------------------------------------------------------------------------
-- What is asked for and what differs
-- ---------------------------------------------------------------------------

theorem requested_eq : e.requested changes =
    (e.patched changes).values.map (Option.guard (!e.holds ·)) := by
  rw [requested]
  repeat rw [differing_map e.holds fun _ => rfl]
  rfl

theorem requested_differences : (e.requested changes).flatMap Option.toList =
    e.differences (e.patched changes) := by
  rw [requested_eq, flatMap_guard, differences]

theorem values_hold (e : Exchange) : ∀ c ∈ e.values, e.holds c = true := by
  simp [values, holds]

theorem differences_nil_iff : old.differences new = [] ↔ ∀ c ∈ new.values, old.holds c = true := by
  simp [differences]

theorem differences_self (e : Exchange) : e.differences e = [] :=
  differences_nil_iff.mpr e.values_hold

theorem differences_nil_iff_agrees (hid : new.id = old.id) (huser : new.user = old.user)
    (hcreated : new.createdAt = old.createdAt) :
    old.differences new = [] ↔ new.agrees old = true := by
  obtain ⟨⟨_, _, _, _, ⟨_, _⟩, _, _, _, _⟩, _⟩ := old
  obtain ⟨⟨_, _, _, _, ⟨_, _⟩, _, _, _, _⟩, _⟩ := new
  subst hid huser hcreated
  simp only [differences_nil_iff, values, holds, agrees, List.mem_cons, List.not_mem_nil, or_false,
    forall_eq_or_imp, forall_eq, beq_iff_eq, mk.injEq, NewExchange.mk.injEq, Client.mk.injEq,
    and_true, true_and, Bool.and_eq_true, decide_eq_true_eq]
  tauto

theorem patched_patched : (e.patched changes).patched changes = e.patched changes := by
  simp only [patched, valueAfter_valueAfter]

-- ---------------------------------------------------------------------------
-- Replaying
-- ---------------------------------------------------------------------------

theorem replay_requested : e.replay ((e.requested changes).flatMap Option.toList) =
    e.patched changes := by
  simp only [replay, requested, List.flatMap_cons, List.flatMap_nil, List.append_nil,
    List.foldl_append]
  rw [foldl_toList set .rate (·.rate) fun _ => rfl,
    foldl_toList set .currencyFrom (·.currencyFrom) fun _ => rfl,
    foldl_toList set .currencyTo (·.currencyTo) fun _ => rfl,
    foldl_toList set .clientId (·.client.id) fun _ => rfl,
    foldl_toList set .clientName (·.client.name) fun _ => rfl,
    foldl_toList set .date (·.date) fun _ => rfl,
    foldl_toList set .amountGiven (·.amountGiven) fun _ => rfl,
    foldl_toList set .amountTaken (·.amountTaken) fun _ => rfl]
  rfl

-- ---------------------------------------------------------------------------
-- Applying
-- ---------------------------------------------------------------------------

theorem unasked_ok {α : Type} {P : Prop} {changed : Option α} (h : P) :
    (Except.ok none : Except DeskError (Option α)) = .ok changed ↔ P ∧ changed = none := by
  constructor
  · rintro ⟨⟩
    exact ⟨h, rfl⟩
  · rintro ⟨-, rfl⟩
    rfl

theorem codeChange_iff {code : CurrencyCode} {asked changed : Option CurrencyCode} :
    codeChange code asked = .ok changed ↔
      (∀ c ∈ asked, ∃ normal, CurrencyCode.parse c.text = .ok normal) ∧
        changed = differing code (asked.bind fun c => CurrencyCode.parse? c.text) := by
  cases asked with
  | none => exact unasked_ok nofun
  | some c =>
    simp only [codeChange, bind_ok, pure_ok, CurrencyCode.parse_iff]
    constructor
    · rintro ⟨normal, hparse, rfl⟩
      simp [hparse, differing]
    · rintro ⟨hvalid, rfl⟩
      obtain ⟨normal, hparse⟩ := hvalid c rfl
      exact ⟨normal, hparse, by simp [hparse, differing]⟩

theorem checkClientField_iff {field : ClientField} {value : Option String} :
    checkClientField field value = .ok () ↔ ∀ text ∈ value, text.length ≤ clientFieldLimit := by
  cases value with
  | none => simp [checkClientField]
  | some text => simp [checkClientField]

theorem clientChange_iff {field : ClientField} {text : Option String}
    {asked changed : Option (Option String)} :
    clientChange field text asked = .ok changed ↔
      (∀ value, asked = some (some value) → value.length ≤ clientFieldLimit) ∧
        changed = differing text asked := by
  cases asked with
  | none => exact unasked_ok nofun
  | some value =>
    have hkept : (if value = text then none else some value) = differing text (some value) := by
      simp [differing]
    rw [clientChange, hkept, check_ok, checkClientField_iff]
    simp

theorem checkPositive_iff {field : AmountField} {amount : Decimal} :
    checkPositive field amount = .ok () ↔ amount.isPositive = true := by
  simp [checkPositive]

theorem positiveChange_iff {field : AmountField} {amount : Decimal}
    {asked changed : Option Decimal} :
    positiveChange field amount asked = .ok changed ↔
      (∀ value ∈ asked, value.isPositive = true) ∧ changed = differing amount asked := by
  cases asked with
  | none => exact unasked_ok nofun
  | some value =>
    have hkept : (if value == amount then none else some value) = differing amount (some value) := rfl
    rw [positiveChange, hkept, check_ok, checkPositive_iff]
    simp

/-- The values are checked one by one, and what differs is kept. -/
theorem changesOf_iff : e.changesOf changes = .ok applied ↔
    changes.Valid ∧ applied = (e.requested changes.normal).flatMap Option.toList := by
  simp only [changesOf, bind_ok, pure_ok, codeChange_iff, clientChange_iff, positiveChange_iff,
    filter_ne]
  constructor
  · rintro ⟨_, ⟨hfrom, rfl⟩, _, ⟨hto, rfl⟩, _, ⟨hid, rfl⟩, _, ⟨hname, rfl⟩, _, ⟨hgiven, rfl⟩,
      _, ⟨htaken, rfl⟩, rfl⟩
    exact ⟨⟨hfrom, hto, hid, hname, hgiven, htaken⟩, rfl⟩
  · rintro ⟨h, rfl⟩
    exact ⟨_, ⟨h.currencyFrom, rfl⟩, _, ⟨h.currencyTo, rfl⟩, _, ⟨h.clientId, rfl⟩,
      _, ⟨h.clientName, rfl⟩, _, ⟨h.amountGiven, rfl⟩, _, ⟨h.amountTaken, rfl⟩, rfl⟩

theorem apply_iff : e.apply changes = .ok (next, applied) ↔
    changes.Valid ∧ next = e.patched changes.normal ∧ applied = e.differences next ∧
      next.currencyFrom ≠ next.currencyTo := by
  simp only [apply, bind_ok, changesOf_iff]
  constructor
  · rintro ⟨_, ⟨hvalid, rfl⟩, h⟩
    rw [replay_requested] at h
    split at h
    · cases h
    · next hdiffer =>
      cases h
      exact ⟨hvalid, rfl, requested_differences, hdiffer⟩
  · rintro ⟨hvalid, rfl, rfl, hdiffer⟩
    refine ⟨_, ⟨hvalid, rfl⟩, ?_⟩
    rw [replay_requested, if_neg hdiffer, requested_differences]
    rfl

/-- A correction is accepted exactly if its values are `Valid` and the corrected record has two
different currencies. The result is the `patched` record, the changes reported are its `differences`
from the old one and replay to it, and the same correction made again changes nothing. -/
theorem apply_faithful (e : Exchange) (changes : ExchangeChanges) :
    ((∃ next applied, e.apply changes = .ok (next, applied)) ↔ changes.Valid ∧
      (e.patched changes.normal).currencyFrom ≠ (e.patched changes.normal).currencyTo) ∧
    ∀ next applied, e.apply changes = .ok (next, applied) →
      next = e.patched changes.normal ∧
      (next.id = e.id ∧ next.user = e.user ∧ next.createdAt = e.createdAt) ∧
      applied = e.differences next ∧ e.replay applied = next ∧
      (applied = [] ↔ next.agrees e = true) ∧ next.apply changes = .ok (next, []) := by
  constructor
  · constructor
    · rintro ⟨next, applied, h⟩
      obtain ⟨hvalid, rfl, -, hdiffer⟩ := apply_iff.mp h
      exact ⟨hvalid, hdiffer⟩
    · rintro ⟨hvalid, hdiffer⟩
      exact ⟨_, _, apply_iff.mpr ⟨hvalid, rfl, rfl, hdiffer⟩⟩
  · intro next applied h
    obtain ⟨hvalid, rfl, rfl, hdiffer⟩ := apply_iff.mp h
    refine ⟨rfl, ⟨rfl, rfl, rfl⟩, rfl, ?_, differences_nil_iff_agrees rfl rfl rfl, ?_⟩
    · rw [← requested_differences, replay_requested]
    · exact apply_iff.mpr ⟨hvalid, patched_patched.symm, (differences_self _).symm, hdiffer⟩

def takenDollars : Exchange :=
  { rate := ⟨1⟩, user := ⟨⟨1⟩, ⟨7⟩⟩, currencyFrom := ⟨"UGX"⟩, currencyTo := ⟨"USD"⟩
    client := ⟨none, some "Akello"⟩, date := openingDay, createdAt := ⟨0⟩
    amountGiven := .ofUInt32 3700, amountTaken := .ofUInt32 1, id := ⟨1⟩ }

/-- Both sides at once, and an amount that is written in another way. -/
def swapped : ExchangeChanges :=
  { currencyFrom := some ⟨" usd"⟩, currencyTo := some ⟨"UGX"⟩, clientName := some none
    amountTaken := Decimal.ofParts? false 100 2 }

theorem apply_faithful_swapped : ∃ next, takenDollars.apply swapped =
      .ok (next, [.currencyFrom ⟨"USD"⟩, .currencyTo ⟨"UGX"⟩, .clientName none]) ∧
    next.amountTaken.text = "1" ∧ next.createdAt = takenDollars.createdAt ∧
    next.apply swapped = .ok (next, []) := by
  have hnext : takenDollars.apply swapped = .ok ({ takenDollars with
      currencyFrom := ⟨"USD"⟩, currencyTo := ⟨"UGX"⟩, client := ⟨none, none⟩ },
      [.currencyFrom ⟨"USD"⟩, .currencyTo ⟨"UGX"⟩, .clientName none]) := by decide +kernel
  obtain ⟨-, ⟨-, -, hcreated⟩, -, -, -, hagain⟩ :=
    (apply_faithful takenDollars swapped).2 _ _ hnext
  exact ⟨_, hnext, by decide +kernel, hcreated, hagain⟩

end Exchange
end ExchangeDesk
