import Mathlib.Data.Prod.Lex
import Mathlib.Data.String.Basic
import ExchangeDesk.Proofs.Granted
import ExchangeDesk.Proofs.InUse

/-!
# Listings

Rates and exchanges are listed in the order of keys that end in their numbers. Dates, codes and
clocks may repeat or run backwards, but numbers are unique, so no two records share a key and the
order is strict (`mergeSort_strict`). Sorting neither loses nor repeats a record, and a cashier's
listing is a part of that of all exchanges (`listings_complete`).
-/

namespace ExchangeDesk

-- ---------------------------------------------------------------------------
-- Rates
-- ---------------------------------------------------------------------------

/-- By code, then by date, then by number. -/
def Rate.Precedes (a b : Rate) : Prop :=
  a.currency.text < b.currency.text ∨ a.currency = b.currency ∧
    (a.date < b.date ∨ a.date = b.date ∧ a.id.number < b.id.number)

def Rate.place (r : Rate) : String ×ₗ Int ×ₗ Nat :=
  toLex (r.currency.text, toLex (r.date.key, r.id.number))

theorem Id.number_inj {entity : Entity} {a b : Id entity} : a.number = b.number ↔ a = b := by
  cases a
  cases b
  simp

theorem CurrencyCode.text_inj {a b : CurrencyCode} : a.text = b.text ↔ a = b := by
  cases a
  cases b
  simp

theorem Date.key_inj {a b : Date} : a.key = b.key ↔ a = b :=
  ⟨key_injective, congrArg key⟩

theorem Rate.precedes_iff {a b : Rate} : a.Precedes b ↔ a.place < b.place := by
  simp only [Precedes, place, Prod.Lex.toLex_lt_toLex, CurrencyCode.text_inj, Date.key_inj]
  rfl

theorem Book.listedBefore_iff {a b : Rate} : listedBefore a b = true ↔ a.place ≤ b.place := by
  simp only [Rate.place, Prod.Lex.toLex_le_toLex, CurrencyCode.text_inj, Date.key_inj]
  unfold listedBefore
  split
  · next hcode =>
    split
    · next hdate => simp [hcode, hdate]
    · next hdate =>
      simp [hcode, hdate]
      rfl
  · next hcode => simp [hcode]

theorem Book.listRates_strict {b : Book} (hids : (b.rates.map (·.id)).Nodup) :
    b.listRates.Pairwise Rate.Precedes := by
  refine mergeSort_strict (fun _ _ => listedBefore_iff) (fun _ _ => Rate.precedes_iff)
    (fun r r' h => ?_) hids
  simp only [Rate.place, toLex_inj, Prod.mk.injEq] at h
  exact Id.number_inj.mp h.2.2

-- ---------------------------------------------------------------------------
-- Exchanges
-- ---------------------------------------------------------------------------

def Exchange.Precedes (a b : Exchange) : Prop :=
  a.createdAt < b.createdAt ∨ a.createdAt = b.createdAt ∧ a.id.number < b.id.number

def Exchange.place (e : Exchange) : Int ×ₗ Nat := toLex (e.createdAt.nanos, e.id.number)

theorem Instant.nanos_inj {a b : Instant} : a.nanos = b.nanos ↔ a = b := by
  cases a
  cases b
  simp

theorem Exchange.precedes_iff {a b : Exchange} : a.Precedes b ↔ a.place < b.place := by
  simp only [Precedes, place, Prod.Lex.toLex_lt_toLex, Instant.nanos_inj]
  rfl

theorem Book.madeBefore_iff {a b : Exchange} : madeBefore a b = true ↔ a.place ≤ b.place := by
  simp only [Exchange.place, Prod.Lex.toLex_le_toLex, Instant.nanos_inj]
  unfold madeBefore
  split
  · next htime => simp [htime]
  · next htime =>
    simp [htime]
    rfl

theorem Book.listExchanges_strict {b : Book} (hids : (b.exchanges.map (·.id)).Nodup) :
    b.listExchanges.Pairwise Exchange.Precedes := by
  refine mergeSort_strict (fun _ _ => madeBefore_iff) (fun _ _ => Exchange.precedes_iff)
    (fun e e' h => ?_) hids
  simp only [Exchange.place, toLex_inj, Prod.mk.injEq] at h
  exact Id.number_inj.mp h.2

-- ---------------------------------------------------------------------------
-- Answers
-- ---------------------------------------------------------------------------

namespace Desk

variable {env : Environment} {s : Session}

theorem retrieveAllRates_passed
    (h : env.faults .listRates (s.calls.count .listRates) = none) :
    retrieveAllRates env s = (.ok s.book.listRates, s.called [.listRates]) :=
  Discreet.call_passed h rfl

theorem retrieveAllExchanges_passed
    (h : env.faults .listExchanges (s.calls.count .listExchanges) = none) :
    retrieveAllExchanges env s = (.ok s.book.listExchanges, s.called [.listExchanges]) :=
  Discreet.call_passed h rfl

theorem retrieveCashierExchanges_answer (staff : StaffId) (code : CurrencyCode) :
    (retrieveCashierExchanges staff code env s).1 = (retrieveAllExchanges env s).1.map
      (·.filter fun e => e.user.staff = staff && e.touches code) := by
  rcases hrun : retrieveAllExchanges env s with ⟨e | listed, t⟩
  · rw [retrieveCashierExchanges, Action.run_bind_error hrun]
    rfl
  · rw [retrieveCashierExchanges, Action.run_bind_value hrun]
    rfl

end Desk

/-- Where the store answers, the listings hold every rate and every exchange once, in strict order
(`Precedes`). A cashier's listing is the part of the exchanges by this staff member that have the
currency on either side, as many as give it and take it together. -/
theorem listings_complete {env : Environment} {s : Session} (hs : InUse s)
    (hrates : env.faults .listRates (s.calls.count .listRates) = none)
    (hexchanges : env.faults .listExchanges (s.calls.count .listExchanges) = none) :
    (∃ rates, (Desk.retrieveAllRates env s).1 = .ok rates ∧ rates.Perm s.book.rates ∧
      (rates.map (·.id)).Nodup ∧ rates.Pairwise Rate.Precedes) ∧
    ∃ exchanges, (Desk.retrieveAllExchanges env s).1 = .ok exchanges ∧
      exchanges.Perm s.book.exchanges ∧ (exchanges.map (·.id)).Nodup ∧
      exchanges.Pairwise Exchange.Precedes ∧
      ∀ staff code, ∃ listed,
        (Desk.retrieveCashierExchanges staff code env s).1 = .ok listed ∧
        listed = exchanges.filter (fun e =>
          e.user.staff = staff ∧ (e.currencyFrom = code ∨ e.currencyTo = code)) ∧
        listed.Perm
          (s.book.exchanges.filter (fun e => e.user.staff = staff ∧ e.currencyFrom = code) ++
            s.book.exchanges.filter (fun e => e.user.staff = staff ∧ e.currencyTo = code)) := by
  have hrateIds := hs.reachable.sound.rateIds
  have hexchangeIds := hs.reachable.drawn.distinct
  have hratesPerm : s.book.listRates.Perm s.book.rates := List.mergeSort_perm ..
  have hexchangesPerm : s.book.listExchanges.Perm s.book.exchanges := List.mergeSort_perm ..
  refine ⟨⟨s.book.listRates, ?_, hratesPerm, ?_, Book.listRates_strict hrateIds⟩,
    s.book.listExchanges, ?_, hexchangesPerm, ?_, Book.listExchanges_strict hexchangeIds, ?_⟩
  · rw [Desk.retrieveAllRates_passed hrates]
  · exact (hratesPerm.map _).nodup_iff.mpr hrateIds
  · rw [Desk.retrieveAllExchanges_passed hexchanges]
  · exact (hexchangesPerm.map _).nodup_iff.mpr hexchangeIds
  · intro staff code
    refine ⟨_, ?_, rfl, ?_⟩
    · rw [Desk.retrieveCashierExchanges_answer, Desk.retrieveAllExchanges_passed hexchanges]
      simp [Except.map, Exchange.touches]
    · refine (hexchangesPerm.filter _).trans ?_
      have hsides : ∀ e ∈ s.book.exchanges,
          ¬ ((e.user.staff = staff ∧ e.currencyFrom = code) ∧
            e.user.staff = staff ∧ e.currencyTo = code) := by
        rintro e he ⟨⟨-, hfrom⟩, -, hto⟩
        exact (hs.exchanges_sane e he).differ (hfrom.trans hto.symm)
      simpa only [and_or_left] using filter_or_perm hsides

/-- The clock runs backwards, a rate is for a day that has passed, and dollars that were given
become euros in the record. -/
def backwardDay : List (Environment × Operation) :=
  [({ clock := fun _ => ⟨5⟩ }, .execute smallRequest),
    ({ clock := fun _ => ⟨3⟩ }, .execute smallRequest),
    ({}, .createRate ⟨⟨2026, 6, 1, by decide⟩, .buying, ⟨"usd"⟩, .whole 3620⟩),
    ({}, .updateExchange ⟨1⟩ { currencyFrom := some ⟨"eur"⟩ })]

theorem listings_complete_backwardDay :
    let final := run backwardDay { book := smallBook }
    InUse final ∧
      final.book.exchanges.map (fun e =>
          (e.id.number, e.createdAt.nanos, e.currencyFrom.text, e.currencyTo.text)) =
        [(1, 5, "EUR", "UGX"), (2, 5, "UGX", "EUR"), (3, 3, "USD", "UGX"), (4, 3, "UGX", "EUR")] ∧
      (∃ rates, (Desk.retrieveAllRates {} final).1 = .ok rates ∧ rates.Perm final.book.rates ∧
        rates.Pairwise Rate.Precedes) ∧
      (∃ exchanges, (Desk.retrieveAllExchanges {} final).1 = .ok exchanges ∧
        exchanges.Pairwise Exchange.Precedes) ∧
      ∃ listed, (Desk.retrieveCashierExchanges ⟨7⟩ ⟨"EUR"⟩ {} final).1 = .ok listed ∧
        listed.length = 3 := by
  intro final
  have hown : ∀ task ∈ backwardDay, task.1.registry = [] := by simp [backwardDay]
  have hloaded : InUse { book := smallBook } := .loaded smallBook_loaded
  have hs : InUse final := hloaded.run backwardDay hown
  obtain ⟨⟨rates, hrates, hperm, -, horder⟩, exchanges, hexchanges, -, -, horder', hcashier⟩ :=
    @listings_complete {} final hs rfl rfl
  obtain ⟨listed, hlisted, -, hsides⟩ := hcashier ⟨7⟩ ⟨"EUR"⟩
  refine ⟨hs, by decide +kernel, ⟨rates, hrates, hperm, horder⟩, ⟨exchanges, hexchanges, horder'⟩,
    listed, hlisted, ?_⟩
  rw [hsides.length_eq]
  decide +kernel

end ExchangeDesk
