import ExchangeDesk.Proofs.Answer

/-!
# Rates over their history

Three calls write the rates of a book: one stores a rate as it is, and the two
others belong to the desk and check it first. Rates are numbered from one in the
order in which they are stored, and a change keeps the number of its rate. So
after any such calls the rate that is found for a date is the one in force
(`resolveAsOf_history`).
-/

namespace ExchangeDesk

open ExchangeDesk.Action

variable {env : Environment} {s : Session} {b b' : Book}

-- ---------------------------------------------------------------------------
-- Calls that write rates
-- ---------------------------------------------------------------------------

/-- What is asked of a desk, or of its store, that may write a rate. -/
inductive RateCall where
  | create (rate : NewRate)
  | insert (rate : NewRate)
  | update (id : RateId) (changes : RateChanges)
  deriving DecidableEq, Repr

/-- The session after a call, whether or not it succeeds. -/
def RateCall.after (env : Environment) (s : Session) : RateCall → Session
  | .create rate => (Desk.createRate rate env s).2
  | .insert rate => (Store.insertRate rate env s).2
  | .update id changes => (Desk.updateRate id changes env s).2

def administer : List (Environment × RateCall) → Session → Session
  | [], s => s
  | (env, call) :: rest, s => administer rest (call.after env s)

theorem administer_append (history later : List (Environment × RateCall)) (s : Session) :
    administer (history ++ later) s = administer later (administer history s) := by
  induction history generalizing s with
  | nil => rfl
  | cons task rest ih => exact ih _

/-- All that a call can do to a book. -/
inductive RateCall.Effect (b b' : Book) : RateCall → Prop
  | kept {call : RateCall} (book : b' = b) : Effect b b' call
  | created {rate valid : NewRate} (book : b' = (b.insertRate valid).2) : Effect b b' (.create rate)
  | inserted {rate : NewRate} (book : b' = (b.insertRate rate).2) : Effect b b' (.insert rate)
  | updated {id : RateId} {changes : RateChanges} {next : Rate} (book : b' = b.putRate next) :
      Effect b b' (.update id changes)

theorem RateCall.after_effect (call : RateCall) (env : Environment) (s : Session) :
    Effect s.book (call.after env s).book call := by
  cases call with
  | create rate =>
    refine Triple.final (I := fun s' => Effect s.book s'.book (.create rate))
      (Triple.mono (Desk.createRate_spec rate) ?_ fun _ _ h => .kept h.book)
    rintro stored s' ⟨valid, currency, -, -, -, h⟩
    exact .created h.book
  | insert rate =>
    refine Triple.final (I := fun s' => Effect s.book s'.book (.insert rate))
      (Triple.mono (Store.insertRate_writes rate) ?_ fun _ _ h => .kept h.book)
    rintro stored s' ⟨_, ⟨-, rfl⟩, h⟩
    exact .inserted h.book
  | update id changes =>
    refine Triple.final (I := fun s' => Effect s.book s'.book (.update id changes))
      (Triple.mono (Desk.updateRate_spec id changes) ?_ fun _ _ h => .kept h.book)
    rintro ⟨next, applied⟩ s' ⟨current, -, h⟩
    split at h
    · exact .kept h.book
    · exact .updated h.book

-- ---------------------------------------------------------------------------
-- Numbers
-- ---------------------------------------------------------------------------

/-- The rates of a book have the numbers from one on, in their order. -/
structure Book.Numbered (b : Book) : Prop where
  numbers : b.rates.map (·.id.number) = List.range' 1 b.rates.length
  next : b.nextRate = b.rates.length + 1

namespace Book

theorem Numbered.insertRate (h : b.Numbered) (rate : NewRate) : (b.insertRate rate).2.Numbered := by
  refine ⟨?_, ?_⟩
  · simp only [Book.insertRate, List.map_append, List.map_singleton, List.length_append,
      List.length_singleton, h.numbers, h.next]
    rw [List.range'_concat, Nat.one_mul, Nat.add_comm 1]
  · simp only [Book.insertRate, List.length_append, List.length_singleton, h.next]

theorem Numbered.putRate (h : b.Numbered) (rate : Rate) : (b.putRate rate).Numbered := by
  have hids := congrArg (List.map Id.number) (b.putRate_ids rate)
  have hlength : (b.putRate rate).rates.length = b.rates.length := by simp [Book.putRate]
  rw [List.map_map, List.map_map] at hids
  refine ⟨?_, ?_⟩
  · rw [hlength]
    exact hids.trans h.numbers
  · rw [hlength]
    exact h.next

theorem ofSnapshot_numbered {snapshot : Snapshot} (h : ofSnapshot snapshot = .ok b) :
    b.Numbered := by
  refine ofSnapshot_invariant (I := Numbered) ?_ ?_ ?_ ?_ ⟨rfl, rfl⟩ h
  · intro b c b' hb hc
    obtain ⟨code, -, -, -, rfl⟩ := addCurrency_ok hc
    exact ⟨hb.numbers, hb.next⟩
  · intro b r b' hb hr
    obtain ⟨valid, -, rfl⟩ := loadRate_ok hr
    exact hb.insertRate valid
  · intro b c b' hb hc
    obtain ⟨-, rfl⟩ := addCashier_ok hc
    exact ⟨hb.numbers, hb.next⟩
  · intro b a b' hb ha
    obtain ⟨currency, -, -, rfl⟩ := addAccount_ok ha
    exact ⟨hb.numbers, hb.next⟩

end Book

namespace RateCall.Effect

variable {call : RateCall}

theorem numbered (h : Effect b b' call) (hb : b.Numbered) : b'.Numbered := by
  cases h with
  | kept hbook =>
    rw [hbook]
    exact hb
  | created hbook =>
    rw [hbook]
    exact hb.insertRate _
  | inserted hbook =>
    rw [hbook]
    exact hb.insertRate _
  | updated hbook =>
    rw [hbook]
    exact hb.putRate _

theorem ids_kept (h : Effect b b' call) : b.rates.map (·.id) <+: b'.rates.map (·.id) := by
  have hkept (h : b'.rates.map (·.id) = b.rates.map (·.id)) :
      b.rates.map (·.id) <+: b'.rates.map (·.id) := h ▸ List.prefix_rfl
  cases h with
  | kept hbook => exact hkept (by rw [hbook])
  | created hbook =>
    rw [hbook]
    exact Book.insertRate_ids ..
  | inserted hbook =>
    rw [hbook]
    exact Book.insertRate_ids ..
  | updated hbook => exact hkept (by rw [hbook, Book.putRate_ids])

theorem ids_of_update {id : RateId} {changes : RateChanges}
    (h : Effect b b' (.update id changes)) : b'.rates.map (·.id) = b.rates.map (·.id) := by
  cases h with
  | kept hbook => rw [hbook]
  | updated hbook => rw [hbook, Book.putRate_ids]

end RateCall.Effect

theorem administer_numbered (hb : s.book.Numbered) (history : List (Environment × RateCall)) :
    (administer history s).book.Numbered := by
  induction history generalizing s with
  | nil => exact hb
  | cons task rest ih =>
    obtain ⟨env, call⟩ := task
    exact ih ((call.after_effect env s).numbered hb)

theorem administer_ids (history : List (Environment × RateCall)) (s : Session) :
    s.book.rates.map (·.id) <+: (administer history s).book.rates.map (·.id) := by
  induction history generalizing s with
  | nil => exact List.prefix_rfl
  | cons task rest ih =>
    obtain ⟨env, call⟩ := task
    exact (call.after_effect env s).ids_kept.trans (ih _)

theorem Book.Numbered.ids_nodup (h : b.Numbered) : (b.rates.map (·.id)).Nodup := by
  refine List.Nodup.of_map Id.number ?_
  rw [List.map_map, Function.comp_def, h.numbers]
  exact List.nodup_range'

-- ---------------------------------------------------------------------------
-- Finding a rate
-- ---------------------------------------------------------------------------

theorem Book.findRateAsOf_eq_none {currency : CurrencyCode} {type : RateType} {date : Date} :
    b.findRateAsOf currency type date = none ↔
      ∀ r ∈ b.rates, r.currency = currency → r.type = type → ¬ r.date ≤ date := by
  have hnone (rates : List Rate) : latest rates = none ↔ rates = [] := by
    constructor
    · intro h
      by_contra hne
      have hsome : (rates.foldl later none).isSome := foldl_later_isSome (.inr hne)
      rw [← latest_eq, h] at hsome
      cases hsome
    · rintro rfl
      rfl
  simp only [findRateAsOf, hnone, List.filter_eq_nil_iff, Bool.and_eq_true, decide_eq_true_eq,
    not_and, and_imp]

theorem RateType.ofNumber?_number (type : RateType) : ofNumber? type.number = some type := by
  cases type <;> rfl

theorem RateType.ofNumber?_eq_none {number : Int} (h : ∀ type : RateType, type.number ≠ number) :
    ofNumber? number = none := by
  refine List.find?_eq_none.mpr fun type _ => ?_
  simpa using h type

namespace Desk

theorem resolveAsOf_answer (h : env.Calm) (currency : CurrencyCode) (type : RateType)
    (date : Date) : (resolveAsOf currency type date env s).1 =
      (s.book.findRateAsOf currency type date).elim
        (.error (.rateNotFound currency type date)) .ok := by
  rcases hrun : resolveAsOf currency type date env s with ⟨e | rate, s'⟩
  · obtain ⟨hnone, rfl⟩ := (resolveAsOf_demand h currency type date).error hrun
    rw [hnone]
    rfl
  · obtain ⟨hfound, -⟩ := (resolveAsOf_demand h currency type date).ok hrun
    rw [hfound]
    rfl

/-- Whatever rates were created or changed before, a store that fails no call lets `resolveAsOf`
return the rate `InForce`, and `rateNotFound` exactly if no rate of the currency and type is dated
up to the day. The lookup by number is the same for the numbers of types and refuses all others.
Rates are numbered from one on in the order of storing, and a change keeps the number. -/
theorem resolveAsOf_history {snapshot : Snapshot} (hload : Book.ofSnapshot snapshot = .ok s.book)
    (h : env.Calm) (history : List (Environment × RateCall)) (currency : CurrencyCode)
    (date : Date) :
    (∀ type rate, (resolveAsOf currency type date env (administer history s)).1 = .ok rate ↔
      InForce (administer history s).book currency type date rate) ∧
    (∀ type e, (resolveAsOf currency type date env (administer history s)).1 = .error e ↔
      e = .rateNotFound currency type date ∧ ∀ r ∈ (administer history s).book.rates,
        r.currency = currency → r.type = type → ¬ r.date ≤ date) ∧
    (∀ type : RateType, resolveNumberAsOf currency type.number date env (administer history s) =
      resolveAsOf currency type date env (administer history s)) ∧
    (∀ number, (∀ type : RateType, type.number ≠ number) →
      (resolveNumberAsOf currency number date env (administer history s)).1 =
        .error (.invalidRateType number)) ∧
    (administer history s).book.rates.map (·.id.number) =
      List.range' 1 (administer history s).book.rates.length ∧
    (∀ later, (administer history s).book.rates.map (·.id) <+:
      (administer (history ++ later) s).book.rates.map (·.id)) ∧
    ∀ env' id changes, (administer (history ++ [(env', .update id changes)]) s).book.rates.map
      (·.id) = (administer history s).book.rates.map (·.id) := by
  have hnumbered := administer_numbered (Book.ofSnapshot_numbered hload) history
  refine ⟨fun type rate => ?_, fun type e => ?_, fun type => ?_, fun number hnumber => ?_,
    hnumbered.numbers, fun later => ?_, fun env' id changes => ?_⟩
  · rw [resolveAsOf_answer h, ← Book.findRateAsOf_iff hnumbered.ids_nodup]
    cases (administer history s).book.findRateAsOf currency type date with
    | none => simp
    | some found => simp
  · rw [resolveAsOf_answer h, ← Book.findRateAsOf_eq_none]
    cases (administer history s).book.findRateAsOf currency type date with
    | none => simp [eq_comm]
    | some found => simp
  · rw [resolveNumberAsOf, RateType.ofNumber?_number]
  · rw [resolveNumberAsOf, RateType.ofNumber?_eq_none hnumber]
    rfl
  · rw [administer_append]
    exact administer_ids later _
  · rw [administer_append]
    exact (RateCall.after_effect (.update id changes) env' _).ids_of_update

/-- A rate for a later day, one stored behind it for an earlier day that has a rate
already, and then the first one put off. -/
def busyWeek : List (Environment × RateCall) :=
  [({}, .create ⟨⟨2026, 7, 3, by decide⟩, .buying, ⟨"usd"⟩, .whole 3660⟩),
    ({}, .insert ⟨openingDay, .buying, ⟨"USD"⟩, .whole 3655⟩),
    ({}, .update ⟨5⟩ { date := some ⟨2026, 7, 9, by decide⟩ })]

theorem resolveAsOf_history_busyWeek :
    Book.ofSnapshot smallDesk = .ok smallBook ∧
      (∃ rate, rate.id = ⟨6⟩ ∧ InForce (administer busyWeek { book := smallBook }).book ⟨"USD"⟩
        .buying ⟨2026, 7, 5, by decide⟩ rate) ∧
      (resolveNumberAsOf ⟨"USD"⟩ 7 openingDay {} (administer busyWeek { book := smallBook })).1 =
        .error (.invalidRateType 7) := by
  have hcalm : ({} : Environment).Calm := fun _ _ => rfl
  have hid : (resolveAsOf ⟨"USD"⟩ .buying ⟨2026, 7, 5, by decide⟩ {}
      (administer busyWeek { book := smallBook })).1.map (·.id) = .ok ⟨6⟩ := by decide +kernel
  have hhistory := @resolveAsOf_history {} { book := smallBook } smallDesk smallBook_loaded hcalm
    busyWeek ⟨"USD"⟩
  refine ⟨smallBook_loaded, ?_, (hhistory openingDay).2.2.2.1 7 fun type => ?_⟩
  · cases hfound : (resolveAsOf ⟨"USD"⟩ .buying ⟨2026, 7, 5, by decide⟩ {}
        (administer busyWeek { book := smallBook })).1 with
    | error e =>
      rw [hfound] at hid
      cases hid
    | ok rate =>
      rw [hfound] at hid
      exact ⟨rate, Except.ok.inj hid, ((hhistory _).1 .buying rate).mp hfound⟩
  · cases type <;> decide

end Desk
end ExchangeDesk
