import ExchangeDesk.Proofs.Listings
import ExchangeDesk.Proofs.RateHistory

/-!
# Reads take codes literally

What writes to a book reads the codes that it is given, so all records are under normal codes.
Finding a rate and listing a cashier's exchanges compares the code that is asked for with these as
it stands. So only the normal spelling of a code finds anything, and two spellings are answered
alike exactly if both are normal, or neither is, or there is nothing to find
(`reads_literally`).
-/

namespace ExchangeDesk

open ExchangeDesk.Action

variable {env : Environment} {s : Session} {a b c code : CurrencyCode}

/-- If every code but the normal one gets one answer, two codes get the same exactly if both are
normal or neither is, or if the normal one gets that answer too. -/
theorem answers_alike {β : Type} (answer : CurrencyCode → β) {nothing : β}
    (ha : a ≠ code → answer a = nothing) (hb : b ≠ code → answer b = nothing) :
    answer a = answer b ↔ ((a = code ↔ b = code) ∨ answer code = nothing) := by
  by_cases hna : a = code
  · by_cases hnb : b = code
    · simp [hna, hnb]
    · simp [hna, hnb, hb hnb]
  · by_cases hnb : b = code
    · simp [hna, hnb, ha hna, eq_comm]
    · simp [hna, hnb, ha hna, hb hnb]

theorem CurrencyCode.ne_of_parse (hstored : parse c.text = .ok c) (ha : parse a.text = .ok code)
    (hne : a ≠ code) : c ≠ a := by
  rintro rfl
  exact hne (Except.ok.inj (hstored.symm.trans ha))

namespace Desk

theorem resolveAsOf_found (code : CurrencyCode) (type : RateType) (date : Date) :
    (resolveAsOf code type date env s).1.toOption =
      if env.faults .findRateAsOf (s.calls.count .findRateAsOf) = none then
        s.book.findRateAsOf code type date
      else none := by
  cases hfault : env.faults .findRateAsOf (s.calls.count .findRateAsOf) with
  | none =>
    have hcall : concealing .exchangeRate (Store.findRateAsOf code type date) env s =
        (.ok (s.book.findRateAsOf code type date), s.called [.findRateAsOf]) :=
      Discreet.call_passed hfault rfl
    rw [if_pos rfl, resolveAsOf, run_bind_value hcall]
    cases s.book.findRateAsOf code type date with
    | none => rfl
    | some rate => rfl
  | some cause =>
    have hcall : (concealing .exchangeRate (Store.findRateAsOf code type date) env s).1 =
        .error (.dataIntegrity .exchangeRate) := congrArg Prod.fst (Discreet.call_failed hfault)
    rw [if_neg (by simp), resolveAsOf, run_bind_error (Prod.ext hcall rfl)]
    rfl

theorem resolveAsOf_literal (hs : InUse s) (ha : CurrencyCode.parse a.text = .ok code)
    (hne : a ≠ code) (type : RateType) (date : Date) :
    (resolveAsOf a type date env s).1.toOption = none := by
  have hnone : s.book.findRateAsOf a type date = none :=
    Book.findRateAsOf_eq_none.mpr fun r hr heq =>
      absurd heq (CurrencyCode.ne_of_parse (hs.rate_codes r hr) ha hne)
  rw [resolveAsOf_found, hnone, ite_self]

theorem resolveNumberAsOf_literal (hs : InUse s) (ha : CurrencyCode.parse a.text = .ok code)
    (hne : a ≠ code) (number : Int) (date : Date) :
    (resolveNumberAsOf a number date env s).1.toOption = none := by
  rw [resolveNumberAsOf]
  cases RateType.ofNumber? number with
  | some type => exact resolveAsOf_literal hs ha hne type date
  | none => rfl

theorem retrieveAllExchanges_stored {listed : List Exchange}
    (h : (retrieveAllExchanges env s).1 = .ok listed) : ∀ e ∈ listed, e ∈ s.book.exchanges := by
  cases hfault : env.faults .listExchanges (s.calls.count .listExchanges) with
  | none =>
    rw [retrieveAllExchanges_passed hfault] at h
    cases h
    intro e he
    exact List.mem_mergeSort.mp he
  | some cause =>
    have hcall : (retrieveAllExchanges env s).1 = .error (.dataIntegrity .forexExchange) :=
      congrArg Prod.fst (Discreet.call_failed hfault)
    rw [hcall] at h
    cases h

theorem retrieveCashierExchanges_literal (hs : InUse s)
    (ha : CurrencyCode.parse a.text = .ok code) (hne : a ≠ code) (staff : StaffId) :
    (retrieveCashierExchanges staff a env s).1 =
      (retrieveAllExchanges env s).1.map fun _ => [] := by
  rw [retrieveCashierExchanges_answer]
  cases hall : (retrieveAllExchanges env s).1 with
  | error e => rfl
  | ok listed =>
    have hnone : (listed.filter fun e => e.user.staff = staff && e.touches a) = [] := by
      refine List.filter_eq_nil_iff.mpr fun e he => ?_
      obtain ⟨hfrom, hto⟩ := hs.exchange_codes e (retrieveAllExchanges_stored hall e he)
      simp [Exchange.touches, CurrencyCode.ne_of_parse hfrom ha hne,
        CurrencyCode.ne_of_parse hto ha hne]
    exact congrArg Except.ok hnone

theorem retrieveCashierExchanges_empty (staff : StaffId) (code : CurrencyCode) :
    (retrieveCashierExchanges staff code env s).1 =
        ((retrieveAllExchanges env s).1.map fun _ => []) ↔
      (retrieveCashierExchanges staff code env s).1.toOption.getD [] = [] := by
  rw [retrieveCashierExchanges_answer]
  cases (retrieveAllExchanges env s).1 with
  | error e => simp [Except.map, Except.toOption]
  | ok listed => simp [Except.map, Except.toOption]

end Desk

/-- The lookup of a rate, by type or by number, and the listing of a cashier's exchanges find
nothing under a spelling that is not the normal form. So two spellings of a code get the same answer
exactly if both are the normal form or neither is, or if it finds nothing itself. -/
theorem reads_literally (hs : InUse s) (ha : CurrencyCode.parse a.text = .ok code)
    (hb : CurrencyCode.parse b.text = .ok code) (env : Environment) :
    (∀ type date, (Desk.resolveAsOf a type date env s).1.toOption =
        (Desk.resolveAsOf b type date env s).1.toOption ↔
      ((a = code ↔ b = code) ∨ (Desk.resolveAsOf code type date env s).1.toOption = none)) ∧
    (∀ number date, (Desk.resolveNumberAsOf a number date env s).1.toOption =
        (Desk.resolveNumberAsOf b number date env s).1.toOption ↔
      ((a = code ↔ b = code) ∨
        (Desk.resolveNumberAsOf code number date env s).1.toOption = none)) ∧
    (∀ staff, (Desk.retrieveCashierExchanges staff a env s).1 =
        (Desk.retrieveCashierExchanges staff b env s).1 ↔
      ((a = code ↔ b = code) ∨
        (Desk.retrieveCashierExchanges staff code env s).1.toOption.getD [] = [])) ∧
    (a ≠ code →
      (∀ type date, (Desk.resolveAsOf a type date env s).1.toOption = none) ∧
      (∀ number date, (Desk.resolveNumberAsOf a number date env s).1.toOption = none) ∧
      ∀ staff, (Desk.retrieveCashierExchanges staff a env s).1.toOption.getD [] = []) := by
  refine ⟨fun type date => ?_, fun number date => ?_, fun staff => ?_, fun hne => ?_⟩
  · exact answers_alike (fun c => (Desk.resolveAsOf c type date env s).1.toOption)
      (fun hne => Desk.resolveAsOf_literal hs ha hne type date)
      fun hne => Desk.resolveAsOf_literal hs hb hne type date
  · exact answers_alike (fun c => (Desk.resolveNumberAsOf c number date env s).1.toOption)
      (fun hne => Desk.resolveNumberAsOf_literal hs ha hne number date)
      fun hne => Desk.resolveNumberAsOf_literal hs hb hne number date
  · rw [← Desk.retrieveCashierExchanges_empty]
    exact answers_alike (fun c => (Desk.retrieveCashierExchanges staff c env s).1)
      (fun hne => Desk.retrieveCashierExchanges_literal hs ha hne staff)
      fun hne => Desk.retrieveCashierExchanges_literal hs hb hne staff
  · refine ⟨Desk.resolveAsOf_literal hs ha hne, Desk.resolveNumberAsOf_literal hs ha hne,
      fun staff => ?_⟩
    exact (Desk.retrieveCashierExchanges_empty staff a).mp
      (Desk.retrieveCashierExchanges_literal hs ha hne staff)

def dollarsSold : List (Environment × Operation) := [({}, .execute smallRequest)]

/-- Dollars have a rate and were just exchanged, but not under their code in small letters. -/
theorem reads_literally_dollars :
    let final := run dollarsSold { book := smallBook }
    InUse final ∧ CurrencyCode.parse "usd" = .ok ⟨"USD"⟩ ∧ CurrencyCode.parse "USD" = .ok ⟨"USD"⟩ ∧
      (Desk.resolveAsOf ⟨"USD"⟩ .buying openingDay {} final).1.toOption.isSome = true ∧
      (Desk.resolveAsOf ⟨"usd"⟩ .buying openingDay {} final).1.toOption = none ∧
      (Desk.retrieveCashierExchanges ⟨7⟩ ⟨"usd"⟩ {} final).1 ≠
        (Desk.retrieveCashierExchanges ⟨7⟩ ⟨"USD"⟩ {} final).1 := by
  intro final
  have hloaded : InUse { book := smallBook } := .loaded smallBook_loaded
  have hs : InUse final := hloaded.run dollarsSold (by simp [dollarsSold])
  have ha : CurrencyCode.parse "usd" = .ok ⟨"USD"⟩ := by decide
  have hb : CurrencyCode.parse "USD" = .ok ⟨"USD"⟩ := by decide
  obtain ⟨-, -, hlisted, hnothing⟩ := @reads_literally final ⟨"usd"⟩ ⟨"USD"⟩ ⟨"USD"⟩ hs ha hb {}
  refine ⟨hs, ha, hb, by decide +kernel, (hnothing (by decide)).1 .buying openingDay, ?_⟩
  rw [Ne, hlisted, Desk.retrieveCashierExchanges_answer, Desk.retrieveAllExchanges_passed rfl]
  rintro (hnormal | hempty)
  · exact absurd (hnormal.mpr rfl) (by decide)
  · obtain ⟨e, he, hsold⟩ : ∃ e ∈ final.book.exchanges,
        (e.user.staff = ⟨7⟩ && e.touches ⟨"USD"⟩) = true := by decide +kernel
    exact List.filter_eq_nil_iff.mp hempty e (List.mem_mergeSort.mpr he) hsold

end ExchangeDesk
