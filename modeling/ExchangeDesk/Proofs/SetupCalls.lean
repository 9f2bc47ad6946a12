import ExchangeDesk.Proofs.Calm
import ExchangeDesk.Proofs.Codes

/-!
# Setting up a book, call by call

A call adds one element in normal form to the book, or it is refused and leaves the
book as it is (`SetupCall.answer_eq`). So whatever calls are made, codes, staff and
accounts stay unique and there is at most one home currency (`Book.WellSetUp`).
`Reachable.setUp` states this with what lookups and routes gain from it.
-/

namespace ExchangeDesk

open ExchangeDesk.Action

variable {b b' : Book}

-- ---------------------------------------------------------------------------
-- Normal forms and faults
-- ---------------------------------------------------------------------------

/-- The code that a text is read as. A text that is no code stays as it is. -/
def CurrencyCode.normal (code : CurrencyCode) : CurrencyCode := (parse? code.text).getD code

theorem CurrencyCode.normal_of_parse? {c code : CurrencyCode} (h : parse? c.text = some code) :
    c.normal = code := by
  simp [normal, h]

def Currency.normal (c : Currency) : Currency := { c with code := c.code.normal }

def ActivityAccount.normal (a : ActivityAccount) : ActivityAccount :=
  { a with currency := a.currency.normal }

def Currency.fault (stored : List Currency) (c : Currency) : Option String :=
  match CurrencyCode.parse? c.code.text with
  | none => some (DeskError.invalidCurrencyCode c.code.text).message
  | some code =>
    if code ∈ stored.map (·.code) then some s!"currency {code} already registered"
    else
      match if c.isHome then stored.find? (·.isHome) else none with
      | some home => some s!"{home.code} is already the home currency"
      | none => none

def Cashier.fault (stored : List Cashier) (c : Cashier) : Option String :=
  if c.staff ∈ stored.map (·.staff) then
    some s!"staff {c.staff} already has a cashier assignment"
  else none

def ActivityAccount.fault (stored : List ActivityAccount) (a : ActivityAccount) : Option String :=
  match CurrencyCode.parse? a.currency.text with
  | none => some (DeskError.invalidCurrencyCode a.currency.text).message
  | some code =>
    if (a.activity, code) ∈ stored.map (fun a => (a.activity, a.currency)) then
      some s!"{a.activity} already mapped for {code}"
    else none

theorem Currency.fault_none {stored : List Currency} {c : Currency} :
    Currency.fault stored c = none ↔ (CurrencyCode.parse? c.code.text).isSome ∧
      c.code.normal ∉ stored.map (·.code) ∧
      (c.isHome = true → stored.find? (·.isHome) = none) := by
  unfold fault
  split
  · next hcode => simp [hcode]
  · next code hcode =>
    rw [hcode, CurrencyCode.normal_of_parse? hcode]
    split
    · next hmem => simp [hmem]
    · next hmem =>
      cases c.isHome <;> cases stored.find? (·.isHome) <;> simp [hmem]

theorem Cashier.fault_none {stored : List Cashier} {c : Cashier} :
    Cashier.fault stored c = none ↔ c.staff ∉ stored.map (·.staff) := by
  unfold fault
  split
  · next hmem => simp [hmem]
  · next hmem => simp [hmem]

theorem ActivityAccount.fault_none {stored : List ActivityAccount} {a : ActivityAccount} :
    ActivityAccount.fault stored a = none ↔ (CurrencyCode.parse? a.currency.text).isSome ∧
      (a.activity, a.currency.normal) ∉ stored.map (fun a => (a.activity, a.currency)) := by
  unfold fault
  split
  · next hcode => simp [hcode]
  · next hcode =>
    rw [hcode, CurrencyCode.normal_of_parse? hcode]
    split
    · next hmem => simp [hmem]
    · next hmem => simp [hmem]

-- ---------------------------------------------------------------------------
-- Calls
-- ---------------------------------------------------------------------------

namespace Book

theorem addCurrency_eq (b : Book) (c : Currency) : b.addCurrency c =
    match c.fault b.currencies with
    | some text => .error (.constraintViolation text)
    | none => .ok { b with currencies := b.currencies ++ [c.normal] } := by
  have hknown (code : CurrencyCode) :
      (b.findCurrency code).isSome ↔ code ∈ b.currencies.map (·.code) := by
    simp [findCurrency]
  cases hcode : CurrencyCode.parse? c.code.text with
  | none =>
    simp only [addCurrency, storedCode, Currency.fault, CurrencyCode.parse, hcode]
    rfl
  | some code =>
    simp only [addCurrency, storedCode, Currency.fault, CurrencyCode.parse, hcode, hknown,
      Currency.normal, CurrencyCode.normal_of_parse? hcode, Except.bind, bind]
    split
    · rfl
    · cases if c.isHome then b.currencies.find? (·.isHome) else none with
      | none => rfl
      | some home => rfl

theorem addCashier_eq (b : Book) (c : Cashier) : b.addCashier c =
    match c.fault b.cashiers with
    | some text => .error (.constraintViolation text)
    | none => .ok { b with cashiers := b.cashiers ++ [c] } := by
  have hknown : (b.findCashier c.staff).isSome ↔ c.staff ∈ b.cashiers.map (·.staff) := by
    simp [findCashier]
  simp only [addCashier, Cashier.fault, hknown]
  split <;> rfl

theorem addAccount_eq (b : Book) (a : ActivityAccount) : b.addAccount a =
    match a.fault b.accounts with
    | some text => .error (.constraintViolation text)
    | none => .ok { b with accounts := b.accounts ++ [a.normal] } := by
  have hknown (code : CurrencyCode) : (b.findAccount a.activity code).isSome ↔
      (a.activity, code) ∈ b.accounts.map (fun a => (a.activity, a.currency)) := by
    simp [findAccount]
  cases hcode : CurrencyCode.parse? a.currency.text with
  | none =>
    simp only [addAccount, storedCode, ActivityAccount.fault, CurrencyCode.parse, hcode]
    rfl
  | some code =>
    simp only [addAccount, storedCode, ActivityAccount.fault, CurrencyCode.parse, hcode, hknown,
      ActivityAccount.normal, CurrencyCode.normal_of_parse? hcode, Except.bind, bind]
    split <;> rfl

end Book

inductive SetupCall where
  | currency (currency : Currency)
  | cashier (cashier : Cashier)
  | account (account : ActivityAccount)
  deriving DecidableEq, Repr

namespace SetupCall

variable {call : SetupCall}

def answer (b : Book) : SetupCall → Except StoreError Book
  | .currency c => b.addCurrency c
  | .cashier c => b.addCashier c
  | .account a => b.addAccount a

def after (b : Book) (call : SetupCall) : Book :=
  match call.answer b with
  | .ok b' => b'
  | .error _ => b

def fault (b : Book) : SetupCall → Option String
  | .currency c => c.fault b.currencies
  | .cashier c => c.fault b.cashiers
  | .account a => a.fault b.accounts

def addTo (b : Book) : SetupCall → Book
  | .currency c => { b with currencies := b.currencies ++ [c.normal] }
  | .cashier c => { b with cashiers := b.cashiers ++ [c] }
  | .account a => { b with accounts := b.accounts ++ [a.normal] }

/-- The code can be read, the key is new, and there is no second home currency. -/
def Fits (b : Book) : SetupCall → Prop
  | .currency c => (CurrencyCode.parse? c.code.text).isSome ∧
      c.code.normal ∉ b.currencies.map (·.code) ∧
      (c.isHome = true → b.currencies.find? (·.isHome) = none)
  | .cashier c => c.staff ∉ b.cashiers.map (·.staff)
  | .account a => (CurrencyCode.parse? a.currency.text).isSome ∧
      (a.activity, a.currency.normal) ∉ b.accounts.map fun a => (a.activity, a.currency)

theorem fault_none : call.fault b = none ↔ call.Fits b := by
  cases call with
  | currency c => exact Currency.fault_none
  | cashier c => exact Cashier.fault_none
  | account a => exact ActivityAccount.fault_none

theorem answer_eq (b : Book) (call : SetupCall) : call.answer b =
    match call.fault b with
    | some text => .error (.constraintViolation text)
    | none => .ok (call.addTo b) := by
  cases call with
  | currency c => exact b.addCurrency_eq c
  | cashier c => exact b.addCashier_eq c
  | account a => exact b.addAccount_eq a

inductive Outcome (b : Book) (call : SetupCall) : Prop
  | added (fits : call.Fits b) (answer : call.answer b = .ok (call.addTo b))
      (after : call.after b = call.addTo b)
  | refused (unfit : ¬ call.Fits b) (text : String)
      (answer : call.answer b = .error (.constraintViolation text)) (after : call.after b = b)

theorem outcome (b : Book) (call : SetupCall) : call.Outcome b := by
  have hanswer := call.answer_eq b
  cases hfault : call.fault b with
  | none =>
    rw [hfault] at hanswer
    exact .added (fault_none.mp hfault) hanswer (by simp [after, hanswer])
  | some text =>
    rw [hfault] at hanswer
    exact .refused (by simp [← fault_none, hfault]) text hanswer (by simp [after, hanswer])

theorem reachable (hb : Reachable b) (call : SetupCall) : Reachable (call.after b) := by
  rw [after]
  split
  · next b' h =>
    cases call with
    | currency c => exact hb.addCurrency h
    | cashier c => exact hb.addCashier h
    | account a => exact hb.addAccount h
  · exact hb

end SetupCall

/-- The book after calls one by one, also those that are refused. -/
def Book.setUp (b : Book) (calls : List SetupCall) : Book := calls.foldl SetupCall.after b

theorem Reachable.calls (hb : Reachable b) (calls : List SetupCall) : Reachable (b.setUp calls) := by
  induction calls generalizing b with
  | nil => exact hb
  | cons call rest ih => exact ih (call.reachable hb)

-- ---------------------------------------------------------------------------
-- What calls keep
-- ---------------------------------------------------------------------------

/-- Staff and accounts are assigned once, the accounts under codes in normal form. -/
structure Book.Assigned (b : Book) : Prop where
  staffDiffer : (b.cashiers.map (·.staff)).Nodup
  accountCodes : ∀ a ∈ b.accounts, CurrencyCode.parse a.currency.text = .ok a.currency
  accountsDiffer : (b.accounts.map fun a => (a.activity, a.currency)).Nodup

/-- Besides this a currency is found under its code, which is in normal form, and one at most
is flagged as home. -/
structure Book.WellSetUp (b : Book) : Prop extends b.Assigned where
  keyed : ∀ c ∈ b.currencies,
    CurrencyCode.parse c.code.text = .ok c.code ∧ b.findCurrency c.code = some c
  oneHome : b.homeCurrencies.length ≤ 1

theorem Book.Assigned.of_eq (h : b.Assigned) (hc : b'.cashiers = b.cashiers)
    (ha : b'.accounts = b.accounts) : b'.Assigned := by
  obtain ⟨hstaff, hcodes, haccounts⟩ := h
  exact ⟨by rwa [hc], by rwa [ha], by rwa [ha]⟩

theorem Reachable.assigned (h : Reachable b) : b.Assigned := by
  induction h with
  | empty => exact ⟨List.nodup_nil, by simp [Book.empty], List.nodup_nil⟩
  | addCurrency _ hadd ih =>
    obtain ⟨_, -, -, -, rfl⟩ := Book.addCurrency_ok hadd
    exact ih.of_eq rfl rfl
  | addCashier _ hadd ih =>
    obtain ⟨hfresh, rfl⟩ := Book.addCashier_ok hadd
    refine ⟨nodup_map_concat.mpr ⟨ih.staffDiffer, ?_⟩, ih.accountCodes, ih.accountsDiffer⟩
    simpa [Book.findCashier] using hfresh
  | addAccount _ hadd ih =>
    obtain ⟨_, hcode, hfresh, rfl⟩ := Book.addAccount_ok hadd
    refine ⟨ih.staffDiffer, ?_, nodup_map_concat.mpr ⟨ih.accountsDiffer, ?_⟩⟩
    · rw [List.forall_mem_append]
      exact ⟨ih.accountCodes, by simpa using Book.storedCode_ok hcode⟩
    · simpa [Book.findAccount] using hfresh
  | insertRate _ _ ih => exact ih.of_eq rfl rfl
  | replaceRate _ hreplace ih =>
    rw [Book.replaceRate_ok hreplace]
    exact ih.of_eq rfl rfl
  | replaceExchange _ hreplace ih =>
    rw [Book.replaceExchange_ok hreplace]
    exact ih.of_eq rfl rfl
  | deleteExchange _ _ ih => exact ih.of_eq rfl rfl
  | draw _ ih => exact ih.of_eq rfl rfl
  | commit _ _ _ hcommit ih =>
    obtain ⟨-, rfl⟩ := Book.commit_ok.mp hcommit
    exact ih.of_eq rfl rfl

theorem Reachable.wellSetUp (h : Reachable b) : b.WellSetUp :=
  { h.assigned with
    keyed := fun c hc => ⟨h.codes_parse c hc, find?_key h.sound.codes hc⟩
    oneHome := h.sound.oneHome }

-- ---------------------------------------------------------------------------
-- What lookups and routes gain
-- ---------------------------------------------------------------------------

theorem Book.WellSetUp.home_eq (h : b.WellSetUp) {c : Currency} (hc : c ∈ b.currencies)
    (hflag : c.isHome = true) : b.homeCurrencies = [c] :=
  eq_singleton h.oneHome (List.mem_filter.mpr ⟨hc, hflag⟩)

namespace Desk

variable {env : Environment} {s : Session}

theorem homeCurrency_answer (hregistry : env.registry = []) (hb : s.book.WellSetUp) :
    Triple homeCurrency env s (fun home _ => s.book.homeCurrencies = [home])
      (fun e _ => (s.book.homeCurrencies = [] ∧ e = .homeCurrencyNotConfigured 0) ∨
        (env.faults .homeCurrencies (s.calls.count .homeCurrencies) ≠ none ∧
          e = .dataIntegrity .organisationCurrency)) := by
  have hread := Triple.and (@Store.homeCurrencies_faults env s)
    Store.homeCurrencies_reads
  refine Triple.bind (Triple.concealing hread fun _ _ he => .inr ⟨he.1, rfl⟩) ?_
  rintro homes s' ⟨-, rfl, -⟩
  rw [hregistry, List.filter_nil, List.append_nil]
  have hone := hb.oneHome
  split
  · next home hhome => exact Triple.pure hhome
  · next hhome =>
    -- at most one currency has the flag, and there is not exactly one
    cases hhomes : s.book.homeCurrencies with
    | nil => exact Triple.fail (.inl ⟨rfl, rfl⟩)
    | cons home rest =>
      rw [hhomes, List.length_cons] at hone
      obtain rfl : rest = [] := List.length_eq_zero_iff.mp (by omega)
      exact absurd hhomes (hhome home)

theorem route_refusal {source target : Currency} (hregistry : env.registry = [])
    (hb : s.book.WellSetUp) (hs : source ∈ s.book.currencies) (ht : target ∈ s.book.currencies)
    (hdiffer : source.code ≠ target.code) :
    ¬ (source.isHome = true ∧ target.isHome = true) ∧
      ∀ n, (route source target env s).1 = .error (.homeCurrencyNotConfigured n) → n = 0 := by
  have hone : ¬ (source.isHome = true ∧ target.isHome = true) := by
    rintro ⟨hfrom, hto⟩
    have hsame := (hb.home_eq hs hfrom).symm.trans (hb.home_eq ht hto)
    exact hdiffer (congrArg Currency.code (List.singleton_inj.mp hsame))
  refine ⟨hone, fun n => ?_⟩
  have hroute : Triple (route source target) env s (fun _ _ => True)
      (fun e _ => ∀ n, e = .homeCurrencyNotConfigured n → n = 0) := by
    unfold route
    split
    · exact Triple.pure trivial
    · exact Triple.pure trivial
    · refine Triple.seq (homeCurrency_answer hregistry hb) ?_ fun _ _ _ => Triple.pure trivial
      rintro e s' (⟨-, rfl⟩ | ⟨-, rfl⟩) n he
      · exact (DeskError.homeCurrencyNotConfigured.inj he).symm
      · cases he
    · next hfrom hto => exact absurd ⟨hfrom, hto⟩ hone
  intro h
  exact hroute.error (Prod.ext h rfl) n rfl

end Desk

/-- Any setup calls leave a reachable book `WellSetUp`, and each further call adds its element or is
refused and changes nothing (`Outcome`). So `homeCurrency` returns the only flagged currency or
reports that there is none, `route` never finds two, and a staff member has one cashier and an
activity and currency one account at most. -/
theorem Reachable.setUp (h : Reachable b) (calls : List SetupCall) :
    (b.setUp calls).WellSetUp ∧
    (∀ call : SetupCall, call.Outcome (b.setUp calls)) ∧
    (∀ env s, s.book = b.setUp calls → env.registry = [] →
      Triple Desk.homeCurrency env s (fun home _ => s.book.homeCurrencies = [home])
        (fun e _ => (s.book.homeCurrencies = [] ∧ e = .homeCurrencyNotConfigured 0) ∨
          (env.faults .homeCurrencies (s.calls.count .homeCurrencies) ≠ none ∧
            e = .dataIntegrity .organisationCurrency)) ∧
      ∀ source ∈ s.book.currencies, ∀ target ∈ s.book.currencies, source.code ≠ target.code →
        ¬ (source.isHome = true ∧ target.isHome = true) ∧
          ∀ n, (Desk.route source target env s).1 = .error (.homeCurrencyNotConfigured n) →
            n = 0) ∧
    (∀ staff, ((b.setUp calls).cashiers.filter (·.staff = staff)).length ≤ 1) ∧
    ∀ activity currency, ((b.setUp calls).accounts.filter fun a =>
      a.activity = activity && a.currency = currency).length ≤ 1 := by
  have hwell := (h.calls calls).wellSetUp
  refine ⟨hwell, fun call => call.outcome _, ?_, ?_, ?_⟩
  · intro env s hs hregistry
    rw [← hs] at hwell
    refine ⟨Desk.homeCurrency_answer hregistry hwell, ?_⟩
    intro source hsource target htarget hdiffer
    exact Desk.route_refusal hregistry hwell hsource htarget hdiffer
  · intro staff
    exact filter_key_length hwell.staffDiffer staff
  · intro activity currency
    simpa [Prod.ext_iff] using filter_key_length hwell.accountsDiffer (activity, currency)

/-- Shillings and dollars in several spellings, each of them as home currency as well, and
a cashier and an account given twice. -/
def raggedCalls : List SetupCall :=
  [.currency ⟨⟨" ugx"⟩, "Uganda Shilling", 0, none, none, true⟩,
    .currency ⟨⟨"Ugx"⟩, "Shilling", 0, none, none, false⟩,
    .currency ⟨⟨"USD"⟩, "US Dollar", 2, none, none, true⟩,
    .currency ⟨⟨"usd "⟩, "US Dollar", 2, none, none, false⟩,
    .cashier ⟨⟨1⟩, ⟨7⟩, ⟨1⟩, ⟨1⟩⟩, .cashier ⟨⟨2⟩, ⟨7⟩, ⟨1⟩, ⟨2⟩⟩,
    .account ⟨.cashAtTeller, ⟨"usd"⟩, ⟨22⟩⟩, .account ⟨.cashAtTeller, ⟨"USD"⟩, ⟨23⟩⟩]

theorem Reachable.setUp_raggedCalls :
    Reachable .empty ∧
      (Book.empty.setUp raggedCalls).currencies.map (·.code.text) = ["UGX", "USD"] ∧
      (Book.empty.setUp raggedCalls).homeCurrencies.map (·.code.text) = ["UGX"] ∧
      (Book.empty.setUp raggedCalls).WellSetUp ∧
      (SetupCall.currency ⟨⟨"eur"⟩, "Euro", 2, none, none, true⟩).Outcome
        (Book.empty.setUp raggedCalls) ∧
      ((Book.empty.setUp raggedCalls).cashiers.filter (·.staff = ⟨7⟩)).length ≤ 1 := by
  have hsetUp := Reachable.setUp .empty raggedCalls
  exact ⟨.empty, by decide +kernel, by decide +kernel, hsetUp.1, hsetUp.2.1 _,
    hsetUp.2.2.2.1 ⟨7⟩⟩

end ExchangeDesk
