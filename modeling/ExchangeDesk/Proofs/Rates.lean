import Mathlib.Data.List.Nodup
import ExchangeDesk.Book.Basic

/-!
# The rate in force

A book finds the rate in force by one pass over its rates. `InForce` says which
one that is without the pass: of the rates of a currency and type that are not
dated later, the one with the greatest date and, on that date, number.
-/

namespace ExchangeDesk

variable {a b c r : Rate} {rates : List Rate}

/-- The rate that holds for a currency and type on a date. -/
structure InForce (book : Book) (currency : CurrencyCode) (type : RateType) (date : Date)
    (rate : Rate) : Prop where
  stored : rate ∈ book.rates
  hasCurrency : rate.currency = currency
  hasType : rate.type = type
  dated : rate.date ≤ date
  greatest : ∀ r ∈ book.rates, r.currency = currency → r.type = type → r.date ≤ date → r ≠ rate →
    r.date < rate.date ∨ r.date = rate.date ∧ r.id.number < rate.id.number

namespace Book

-- ---------------------------------------------------------------------------
-- The order of rates
-- ---------------------------------------------------------------------------

theorem earlier_iff : earlier a b = true ↔
    a.date.key < b.date.key ∨ a.date.key = b.date.key ∧ a.id.number < b.id.number := by
  have hdate : a.date = b.date ↔ a.date.key = b.date.key :=
    ⟨congrArg Date.key, Date.key_injective⟩
  simp only [earlier, Bool.or_eq_true, Bool.and_eq_true, decide_eq_true_eq, hdate]
  rfl

theorem earlier_irrefl (a : Rate) : earlier a a = false := by
  rw [← Bool.not_eq_true, earlier_iff]
  omega

theorem earlier_asymm (h : earlier a b = true) : earlier b a = false := by
  rw [earlier_iff] at h
  rw [← Bool.not_eq_true, earlier_iff]
  omega

theorem not_earlier_trans (hba : earlier b a = false) (hcb : earlier c b = false) :
    earlier c a = false := by
  rw [← Bool.not_eq_true, earlier_iff] at *
  omega

theorem earlier_of_not (h : earlier b a = false) (hid : a.id ≠ b.id) : earlier a b = true := by
  have hnumber : a.id.number ≠ b.id.number := fun hn => hid (congrArg Id.mk hn)
  rw [← Bool.not_eq_true, earlier_iff] at h
  rw [earlier_iff]
  omega

-- ---------------------------------------------------------------------------
-- The last rate
-- ---------------------------------------------------------------------------

def later (best : Option Rate) (r : Rate) : Option Rate :=
  match best with
  | some b => if earlier r b then some b else some r
  | none => some r

theorem latest_eq (rates : List Rate) : latest rates = rates.foldl later none := rfl

theorem later_some (best : Option Rate) (a : Rate) : ∃ x, later best a = some x ∧
    (best = some x ∨ x = a) ∧ ∀ b, best = some b ∨ b = a → earlier x b = false := by
  cases best with
  | none => exact ⟨a, rfl, .inr rfl, by simp [earlier_irrefl]⟩
  | some b =>
    cases h : earlier a b with
    | true =>
      refine ⟨b, by simp [later, h], .inl rfl, ?_⟩
      rintro x (hx | rfl)
      · obtain rfl := Option.some.inj hx
        exact earlier_irrefl b
      · exact earlier_asymm h
    | false =>
      refine ⟨a, by simp [later, h], .inr rfl, ?_⟩
      rintro x (hx | rfl)
      · obtain rfl := Option.some.inj hx
        exact h
      · exact earlier_irrefl _

theorem foldl_later {best : Option Rate} (h : rates.foldl later best = some r) :
    (best = some r ∨ r ∈ rates) ∧ ∀ x, best = some x ∨ x ∈ rates → earlier r x = false := by
  induction rates generalizing best with
  | nil =>
    rw [List.foldl_nil] at h
    refine ⟨.inl h, fun x hx => ?_⟩
    rcases hx with hx | hx
    · obtain rfl : r = x := Option.some.inj (h.symm.trans hx)
      exact earlier_irrefl r
    · cases hx
  | cons a rates ih =>
    -- `y` is what is kept of `best` and `a`; by `ih` nothing in the rest is later than `r`
    obtain ⟨y, hy, hfrom, hmax⟩ := later_some best a
    rw [List.foldl_cons, hy] at h
    obtain ⟨hr, hlater⟩ := ih h
    have hry : earlier r y = false := hlater y (.inl rfl)
    refine ⟨?_, fun x hx => ?_⟩
    · rcases hr with hr | hr
      · obtain rfl := Option.some.inj hr
        rcases hfrom with hbest | rfl
        · exact .inl hbest
        · exact .inr List.mem_cons_self
      · exact .inr (List.mem_cons_of_mem a hr)
    · rw [List.mem_cons, ← or_assoc] at hx
      rcases hx with hx | hx
      · exact not_earlier_trans (hmax x hx) hry
      · exact hlater x (.inr hx)

theorem findRateAsOf_inForce {book : Book} {currency : CurrencyCode} {type : RateType} {date : Date}
    (hids : (book.rates.map (·.id)).Nodup)
    (h : book.findRateAsOf currency type date = some r) : InForce book currency type date r := by
  rw [findRateAsOf, latest_eq] at h
  obtain ⟨hr, hlater⟩ := foldl_later h
  simp only [reduceCtorEq, false_or, List.mem_filter, Bool.and_eq_true,
    decide_eq_true_eq] at hr hlater
  obtain ⟨hstored, ⟨hcurrency, htype⟩, hdate⟩ := hr
  refine ⟨hstored, hcurrency, htype, hdate, ?_⟩
  intro x hx hxcurrency hxtype hxdate hne
  have hid : x.id ≠ r.id := fun heq => hne (List.inj_on_of_nodup_map hids hx hstored heq)
  have hearlier := earlier_of_not (hlater x ⟨hx, ⟨hxcurrency, hxtype⟩, hxdate⟩) hid
  simpa only [earlier, Bool.or_eq_true, Bool.and_eq_true, decide_eq_true_eq] using hearlier

theorem foldl_later_isSome {best : Option Rate} (h : best.isSome ∨ rates ≠ []) :
    (rates.foldl later best).isSome := by
  induction rates generalizing best with
  | nil => simpa using h
  | cons a rates ih =>
    obtain ⟨y, hy, -⟩ := later_some best a
    rw [List.foldl_cons, hy]
    exact ih (.inl rfl)

theorem inForce_unique {book : Book} {currency : CurrencyCode} {type : RateType} {date : Date}
    (ha : InForce book currency type date a) (hb : InForce book currency type date b) : a = b := by
  by_contra hne
  have hba := ha.greatest b hb.stored hb.hasCurrency hb.hasType hb.dated (Ne.symm hne)
  have hab := hb.greatest a ha.stored ha.hasCurrency ha.hasType ha.dated hne
  replace hba : earlier b a = true := by simpa [earlier] using hba
  replace hab : earlier a b = true := by simpa [earlier] using hab
  simp [earlier_asymm hba] at hab

theorem findRateAsOf_iff {book : Book} {currency : CurrencyCode} {type : RateType} {date : Date}
    (hids : (book.rates.map (·.id)).Nodup) :
    book.findRateAsOf currency type date = some r ↔ InForce book currency type date r := by
  refine ⟨findRateAsOf_inForce hids, fun h => ?_⟩
  have hmem : r ∈ book.rates.filter fun r =>
      r.currency = currency && r.type = type && decide (r.date ≤ date) := by
    simp [h.stored, h.hasCurrency, h.hasType, h.dated]
  obtain ⟨found, hfound⟩ : ∃ found, book.findRateAsOf currency type date = some found :=
    Option.isSome_iff_exists.mp (foldl_later_isSome (.inr (List.ne_nil_of_mem hmem)))
  rw [hfound, inForce_unique (findRateAsOf_inForce hids hfound) h]

end Book
end ExchangeDesk
