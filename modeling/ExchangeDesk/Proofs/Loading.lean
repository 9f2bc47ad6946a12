import ExchangeDesk.Proofs.SetupCalls

/-!
# When a snapshot loads

A snapshot is loaded element by element, so each element is checked against the
ones before it. Taken together these checks say that the snapshot is consistent
(`Snapshot.Consistent`), and then the book holds its elements in normal form and
nothing else (`Snapshot.contents`). Otherwise the first element at fault is
reported (`Snapshot.Faulted`). `Book.ofSnapshot_iff` is the exact statement.
-/

namespace ExchangeDesk

-- ---------------------------------------------------------------------------
-- Lists that are checked from the front
-- ---------------------------------------------------------------------------

section

variable {α β : Type} {fault : List α → α → Option String} {l : List α} {x : α} {text : String}

/-- No element has a fault behind the ones before it. -/
def Faultless (fault : List α → α → Option String) (l : List α) : Prop :=
  ∀ before x after, l = before ++ x :: after → fault before x = none

/-- The fault of the first element that has one behind the ones before it. -/
def FirstFault (fault : List α → α → Option String) (l : List α) (text : String) : Prop :=
  ∃ before x after, l = before ++ x :: after ∧ Faultless fault before ∧
    fault before x = some text

@[simp] theorem faultless_nil : Faultless fault [] := by
  rintro before x after h
  simp at h

@[simp] theorem faultless_concat :
    Faultless fault (l ++ [x]) ↔ Faultless fault l ∧ fault l x = none := by
  constructor
  · intro h
    refine ⟨?_, h l x [] rfl⟩
    rintro before y after rfl
    exact h before y (after ++ [x]) (by simp)
  · rintro ⟨hl, hx⟩ before y after h
    rcases concat_split h with ⟨rfl, rfl⟩ | ⟨rest, hrest⟩
    · exact hx
    · exact hl before y rest hrest

theorem not_firstFault_nil : ¬ FirstFault fault [] text := by
  rintro ⟨before, x, after, h, -⟩
  simp at h

theorem firstFault_concat : FirstFault fault (l ++ [x]) text ↔
    FirstFault fault l text ∨ Faultless fault l ∧ fault l x = some text := by
  constructor
  · rintro ⟨before, y, after, h, hbefore, hy⟩
    rcases concat_split h with ⟨rfl, rfl⟩ | ⟨rest, hrest⟩
    · exact .inr ⟨hbefore, hy⟩
    · exact .inl ⟨before, y, rest, hrest, hbefore, hy⟩
  · rintro (⟨before, y, rest, rfl, hbefore, hy⟩ | ⟨hl, hx⟩)
    · exact ⟨before, y, rest ++ [x], by simp, hbefore, hy⟩
    · exact ⟨l, x, [], rfl, hl, hx⟩

variable {step : β → α → Except StoreError β} {state : List α → β}

/-- A step takes an element behind others, or reports its fault. -/
def Checks (fault : List α → α → Option String) (step : β → α → Except StoreError β)
    (state : List α → β) : Prop :=
  ∀ before x, step (state before) x =
    match fault before x with
    | some text => .error (.constraintViolation text)
    | none => .ok (state (before ++ [x]))

namespace Checks

theorem step_ok (h : Checks fault step state) {before : List α} {b : β} :
    step (state before) x = .ok b ↔ fault before x = none ∧ b = state (before ++ [x]) := by
  rw [h]
  cases fault before x with
  | none => simp [eq_comm]
  | some text => simp

theorem step_error (h : Checks fault step state) {before : List α} {e : StoreError} :
    step (state before) x = .error e ↔
      ∃ text, fault before x = some text ∧ e = .constraintViolation text := by
  rw [h]
  cases fault before x with
  | none => simp
  | some text => simp [eq_comm]

theorem foldlM_ok (h : Checks fault step state) (l : List α) {b : β} :
    l.foldlM step (state []) = .ok b ↔ Faultless fault l ∧ b = state l := by
  induction l using List.reverseRecOn generalizing b with
  | nil => simp [pure, Except.pure, eq_comm]
  | append_singleton l x ih =>
    rw [List.foldlM_append, bind_ok, faultless_concat]
    simp only [List.foldlM_cons, List.foldlM_nil, bind_pure, ih]
    constructor
    · rintro ⟨_, ⟨hl, rfl⟩, hstep⟩
      obtain ⟨hx, rfl⟩ := h.step_ok.mp hstep
      exact ⟨⟨hl, hx⟩, rfl⟩
    · rintro ⟨⟨hl, hx⟩, rfl⟩
      exact ⟨state l, ⟨hl, rfl⟩, h.step_ok.mpr ⟨hx, rfl⟩⟩

theorem foldlM_error (h : Checks fault step state) (l : List α) {e : StoreError} :
    l.foldlM step (state []) = .error e ↔
      ∃ text, FirstFault fault l text ∧ e = .constraintViolation text := by
  induction l using List.reverseRecOn with
  | nil => simp [pure, Except.pure, not_firstFault_nil]
  | append_singleton l x ih =>
    rw [List.foldlM_append, bind_error]
    simp only [List.foldlM_cons, List.foldlM_nil, bind_pure, h.foldlM_ok, ih, firstFault_concat]
    constructor
    · rintro (⟨text, hfirst, rfl⟩ | ⟨_, ⟨hl, rfl⟩, hstep⟩)
      · exact ⟨text, .inl hfirst, rfl⟩
      · obtain ⟨text, hx, rfl⟩ := h.step_error.mp hstep
        exact ⟨text, .inr ⟨hl, hx⟩, rfl⟩
    · rintro ⟨text, hfirst | ⟨hl, hx⟩, rfl⟩
      · exact .inl ⟨text, hfirst, rfl⟩
      · exact .inr ⟨state l, ⟨hl, rfl⟩, h.step_error.mpr ⟨text, hx, rfl⟩⟩

variable {γ : Type} {rest : β → Except StoreError γ}

theorem foldlM_bind_ok (h : Checks fault step state) (l : List α) {c : γ} :
    (l.foldlM step (state []) >>= rest) = .ok c ↔
      Faultless fault l ∧ rest (state l) = .ok c := by
  simp only [bind_ok, h.foldlM_ok, and_assoc, exists_and_left, exists_eq_left]

theorem foldlM_bind_error (h : Checks fault step state) (l : List α) {e : StoreError} :
    (l.foldlM step (state []) >>= rest) = .error e ↔
      (∃ text, FirstFault fault l text ∧ e = .constraintViolation text) ∨
        Faultless fault l ∧ rest (state l) = .error e := by
  simp only [bind_error, h.foldlM_error, h.foldlM_ok, and_assoc, exists_and_left, exists_eq_left]

end Checks

end

-- ---------------------------------------------------------------------------
-- Consistent snapshots
-- ---------------------------------------------------------------------------

def NewRate.normal (r : NewRate) : NewRate :=
  { r with currency := r.currency.normal, amount := r.amount.round rateScale }

def NewRate.fault (r : NewRate) : Option String :=
  match CurrencyCode.parse? r.currency.text with
  | none => some (DeskError.invalidCurrencyCode r.currency.text).message
  | some code =>
    if (r.amount.round rateScale).isPositive then none
    else some (DeskError.invalidRateAmount none code r.amount).message

def Currency.faultBehind (before : List Currency) (c : Currency) : Option String :=
  c.fault (before.map (·.normal))

def ActivityAccount.faultBehind (before : List ActivityAccount) (a : ActivityAccount) :
    Option String :=
  a.fault (before.map (·.normal))

namespace Snapshot

/-- All codes can be read, no key is given twice and no second currency is flagged as
home, keys being compared in normal form; all rates are positive at six digits. -/
structure Consistent (s : Snapshot) : Prop where
  currencyCodes : ∀ c ∈ s.currencies, (CurrencyCode.parse? c.code.text).isSome
  currenciesDiffer : (s.currencies.map (·.code.normal)).Nodup
  oneHome : (s.currencies.filter (·.isHome)).length ≤ 1
  rateCodes : ∀ r ∈ s.rates, (CurrencyCode.parse? r.currency.text).isSome
  ratesPositive : ∀ r ∈ s.rates, (r.amount.round rateScale).isPositive
  staffDiffer : (s.cashiers.map (·.staff)).Nodup
  accountCodes : ∀ a ∈ s.accounts, (CurrencyCode.parse? a.currency.text).isSome
  accountsDiffer : (s.accounts.map fun a => (a.activity, a.currency.normal)).Nodup

/-- The book with the elements of a snapshot, rates being numbered from one on. -/
def contents (s : Snapshot) : Book :=
  { currencies := s.currencies.map (·.normal)
    rates := s.rates.mapIdx fun i r => { r.normal with id := ⟨i + 1⟩ }
    cashiers := s.cashiers
    accounts := s.accounts.map (·.normal)
    nextRate := s.rates.length + 1 }

/-- The text describes the first element at fault, currencies being looked at first, then
rates, cashiers and accounts. -/
inductive Faulted (s : Snapshot) (text : String) : Prop
  | currency (first : FirstFault Currency.faultBehind s.currencies text)
  | rate (currencies : Faultless Currency.faultBehind s.currencies)
      (first : FirstFault (fun _ => NewRate.fault) s.rates text)
  | cashier (currencies : Faultless Currency.faultBehind s.currencies)
      (rates : Faultless (fun _ => NewRate.fault) s.rates)
      (first : FirstFault Cashier.fault s.cashiers text)
  | account (currencies : Faultless Currency.faultBehind s.currencies)
      (rates : Faultless (fun _ => NewRate.fault) s.rates)
      (cashiers : Faultless Cashier.fault s.cashiers)
      (first : FirstFault ActivityAccount.faultBehind s.accounts text)

end Snapshot

-- ---------------------------------------------------------------------------
-- What each step checks
-- ---------------------------------------------------------------------------

section

variable (s : Snapshot)

theorem addCurrency_checks : Checks Currency.faultBehind Book.addCurrency
    fun l => { s with currencies := l }.contents := by
  intro before c
  refine (Book.addCurrency_eq _ c).trans ?_
  change (match Currency.faultBehind before c with | some text => _ | none => _) = _
  cases Currency.faultBehind before c with
  | none => simp [Snapshot.contents]
  | some text => rfl

theorem loadRate_checks : Checks (fun _ => NewRate.fault) Book.loadRate
    fun l => { s with rates := l }.contents := by
  intro before r
  cases hcode : CurrencyCode.parse? r.currency.text with
  | none =>
    simp only [Book.loadRate, NewRate.validated, NewRate.fault, CurrencyCode.parse, hcode]
    rfl
  | some code =>
    simp only [Book.loadRate, NewRate.validated, NewRate.fault, CurrencyCode.parse, hcode,
      Except.bind, bind]
    cases (r.amount.round rateScale).isPositive with
    | false => rfl
    | true =>
      simp [Snapshot.contents, Book.insertRate, NewRate.normal,
        CurrencyCode.normal_of_parse? hcode, pure, Except.pure]

theorem addCashier_checks : Checks Cashier.fault Book.addCashier
    fun l => { s with cashiers := l }.contents := by
  intro before c
  refine (Book.addCashier_eq _ c).trans ?_
  change (match Cashier.fault before c with | some text => _ | none => _) = _
  cases Cashier.fault before c with
  | none => rfl
  | some text => rfl

theorem addAccount_checks : Checks ActivityAccount.faultBehind Book.addAccount
    fun l => { s with accounts := l }.contents := by
  intro before a
  refine (Book.addAccount_eq _ a).trans ?_
  change (match ActivityAccount.faultBehind before a with | some text => _ | none => _) = _
  cases ActivityAccount.faultBehind before a with
  | none => simp [Snapshot.contents]
  | some text => rfl

end

-- ---------------------------------------------------------------------------
-- Lists without faults
-- ---------------------------------------------------------------------------

theorem Currency.faultBehind_none {before : List Currency} {c : Currency} :
    Currency.faultBehind before c = none ↔ (CurrencyCode.parse? c.code.text).isSome ∧
      c.code.normal ∉ before.map (·.code.normal) ∧
      (c.isHome = true → before.find? (·.isHome) = none) := by
  have hhome : (before.map (·.normal)).find? (·.isHome) = none ↔
      before.find? (·.isHome) = none := by
    simp [Currency.normal]
  rw [faultBehind, Currency.fault_none, hhome, List.map_map]
  rfl

theorem NewRate.fault_none {r : NewRate} : r.fault = none ↔
    (CurrencyCode.parse? r.currency.text).isSome ∧ (r.amount.round rateScale).isPositive := by
  unfold fault
  split
  · next hcode => simp [hcode]
  · next hcode =>
    rw [hcode]
    split
    · next hpositive => simp [hpositive]
    · next hpositive => simp [hpositive]

theorem ActivityAccount.faultBehind_none {before : List ActivityAccount} {a : ActivityAccount} :
    ActivityAccount.faultBehind before a = none ↔ (CurrencyCode.parse? a.currency.text).isSome ∧
      (a.activity, a.currency.normal) ∉ before.map (fun a => (a.activity, a.currency.normal)) := by
  rw [faultBehind, ActivityAccount.fault_none, List.map_map]
  rfl

theorem faultless_currencies {l : List Currency} : Faultless Currency.faultBehind l ↔
    (∀ c ∈ l, (CurrencyCode.parse? c.code.text).isSome) ∧ (l.map (·.code.normal)).Nodup ∧
      (l.filter (·.isHome)).length ≤ 1 := by
  induction l using List.reverseRecOn with
  | nil => simp
  | append_singleton l c ih =>
    rw [faultless_concat, ih, Currency.faultBehind_none, nodup_map_concat, filter_concat_le_one,
      List.forall_mem_append, List.forall_mem_singleton]
    tauto

theorem faultless_rates {l : List NewRate} : Faultless (fun _ => NewRate.fault) l ↔
    (∀ r ∈ l, (CurrencyCode.parse? r.currency.text).isSome) ∧
      ∀ r ∈ l, (r.amount.round rateScale).isPositive := by
  induction l using List.reverseRecOn with
  | nil => simp
  | append_singleton l r ih =>
    rw [faultless_concat, ih, NewRate.fault_none, List.forall_mem_append,
      List.forall_mem_append, List.forall_mem_singleton, List.forall_mem_singleton]
    tauto

theorem faultless_cashiers {l : List Cashier} : Faultless Cashier.fault l ↔
    (l.map (·.staff)).Nodup := by
  induction l using List.reverseRecOn with
  | nil => simp
  | append_singleton l c ih => rw [faultless_concat, ih, Cashier.fault_none, nodup_map_concat]

theorem faultless_accounts {l : List ActivityAccount} : Faultless ActivityAccount.faultBehind l ↔
    (∀ a ∈ l, (CurrencyCode.parse? a.currency.text).isSome) ∧
      (l.map fun a => (a.activity, a.currency.normal)).Nodup := by
  induction l using List.reverseRecOn with
  | nil => simp
  | append_singleton l a ih =>
    rw [faultless_concat, ih, ActivityAccount.faultBehind_none, nodup_map_concat,
      List.forall_mem_append, List.forall_mem_singleton]
    tauto

-- ---------------------------------------------------------------------------
-- Loading
-- ---------------------------------------------------------------------------

namespace Snapshot

theorem consistent_iff_faultless {s : Snapshot} : s.Consistent ↔
    Faultless Currency.faultBehind s.currencies ∧ Faultless (fun _ => NewRate.fault) s.rates ∧
      Faultless Cashier.fault s.cashiers ∧ Faultless ActivityAccount.faultBehind s.accounts := by
  rw [faultless_currencies, faultless_rates, faultless_cashiers, faultless_accounts]
  constructor
  · rintro ⟨hcodes, hdiffer, hhome, hrates, hpositive, hstaff, haccounts, hmapped⟩
    exact ⟨⟨hcodes, hdiffer, hhome⟩, ⟨hrates, hpositive⟩, hstaff, haccounts, hmapped⟩
  · rintro ⟨⟨hcodes, hdiffer, hhome⟩, ⟨hrates, hpositive⟩, hstaff, haccounts, hmapped⟩
    exact ⟨hcodes, hdiffer, hhome, hrates, hpositive, hstaff, haccounts, hmapped⟩

end Snapshot

/-- A snapshot loads exactly if it is `Consistent`, and then to its `contents`; the error describes
the first element at fault (`Faulted`). -/
theorem Book.ofSnapshot_iff (s : Snapshot) :
    (∀ b, ofSnapshot s = .ok b ↔ s.Consistent ∧ b = s.contents) ∧
    ∀ e, ofSnapshot s = .error e ↔
      ∃ text, s.Faulted text ∧ e = .constraintViolation text := by
  -- each list meets the book that the lists before it have left
  have hcurrencies := addCurrency_checks { s with rates := [], cashiers := [], accounts := [] }
  have hrates := loadRate_checks { s with cashiers := [], accounts := [] }
  have hcashiers := addCashier_checks { s with accounts := [] }
  have haccounts := addAccount_checks s
  constructor
  · intro b
    rw [Snapshot.consistent_iff_faultless]
    constructor
    · intro h
      obtain ⟨hc, h⟩ := (hcurrencies.foldlM_bind_ok _).mp h
      obtain ⟨hr, h⟩ := (hrates.foldlM_bind_ok _).mp h
      obtain ⟨hs, h⟩ := (hcashiers.foldlM_bind_ok _).mp h
      obtain ⟨ha, hb⟩ := (haccounts.foldlM_ok _).mp h
      exact ⟨⟨hc, hr, hs, ha⟩, hb⟩
    · rintro ⟨⟨hc, hr, hs, ha⟩, hb⟩
      refine (hcurrencies.foldlM_bind_ok _).mpr ⟨hc, ?_⟩
      refine (hrates.foldlM_bind_ok _).mpr ⟨hr, ?_⟩
      refine (hcashiers.foldlM_bind_ok _).mpr ⟨hs, ?_⟩
      exact (haccounts.foldlM_ok _).mpr ⟨ha, hb⟩
  · intro e
    constructor
    · intro h
      rcases (hcurrencies.foldlM_bind_error _).mp h with ⟨text, hfirst, he⟩ | ⟨hc, h⟩
      · exact ⟨text, .currency hfirst, he⟩
      rcases (hrates.foldlM_bind_error _).mp h with ⟨text, hfirst, he⟩ | ⟨hr, h⟩
      · exact ⟨text, .rate hc hfirst, he⟩
      rcases (hcashiers.foldlM_bind_error _).mp h with ⟨text, hfirst, he⟩ | ⟨hs, h⟩
      · exact ⟨text, .cashier hc hr hfirst, he⟩
      obtain ⟨text, hfirst, he⟩ := (haccounts.foldlM_error _).mp h
      exact ⟨text, .account hc hr hs hfirst, he⟩
    · rintro ⟨text, hfaulted, he⟩
      cases hfaulted with
      | currency hfirst =>
        exact (hcurrencies.foldlM_bind_error _).mpr (.inl ⟨text, hfirst, he⟩)
      | rate hc hfirst =>
        refine (hcurrencies.foldlM_bind_error _).mpr (.inr ⟨hc, ?_⟩)
        exact (hrates.foldlM_bind_error _).mpr (.inl ⟨text, hfirst, he⟩)
      | cashier hc hr hfirst =>
        refine (hcurrencies.foldlM_bind_error _).mpr (.inr ⟨hc, ?_⟩)
        refine (hrates.foldlM_bind_error _).mpr (.inr ⟨hr, ?_⟩)
        exact (hcashiers.foldlM_bind_error _).mpr (.inl ⟨text, hfirst, he⟩)
      | account hc hr hs hfirst =>
        refine (hcurrencies.foldlM_bind_error _).mpr (.inr ⟨hc, ?_⟩)
        refine (hrates.foldlM_bind_error _).mpr (.inr ⟨hr, ?_⟩)
        refine (hcashiers.foldlM_bind_error _).mpr (.inr ⟨hs, ?_⟩)
        exact (haccounts.foldlM_error _).mpr ⟨text, hfirst, he⟩

example : Book.ofSnapshot { currencies := [⟨⟨" usd"⟩, "US Dollar", 2, none, none, false⟩,
    ⟨⟨"USD"⟩, "Dollar", 2, none, none, true⟩] } =
    .error (.constraintViolation "currency USD already registered") := by rfl

end ExchangeDesk
