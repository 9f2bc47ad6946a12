import ExchangeDesk.Book.Snapshot
import ExchangeDesk.Proofs.Checks

/-!
# How a book is set up

What each step of setting up a book has checked and what it adds. Loading a
snapshot is such steps one after the other, so it keeps what each of them keeps.
-/

namespace ExchangeDesk

variable {b b' : Book}

namespace Book

theorem addCurrency_ok {currency : Currency} (h : b.addCurrency currency = .ok b') :
    ∃ code, storedCode currency.code = .ok code ∧ b.findCurrency code = none ∧
      (currency.isHome = true → ∀ c ∈ b.currencies, c.isHome = false) ∧
      b' = { b with currencies := b.currencies ++ [{ currency with code }] } := by
  simp only [addCurrency, bind_ok] at h
  obtain ⟨code, hcode, h⟩ := h
  split at h
  · cases h
  next hfresh =>
  split at h
  · cases h
  · next hhome =>
    cases h
    refine ⟨code, hcode, by simpa using hfresh, fun hc => ?_, rfl⟩
    simpa [hc] using hhome

theorem addCashier_ok {cashier : Cashier} (h : b.addCashier cashier = .ok b') :
    b.findCashier cashier.staff = none ∧ b' = { b with cashiers := b.cashiers ++ [cashier] } := by
  unfold addCashier at h
  split at h
  · cases h
  · next hfresh =>
    cases h
    exact ⟨by simpa using hfresh, rfl⟩

theorem addAccount_ok {account : ActivityAccount} (h : b.addAccount account = .ok b') :
    ∃ currency, storedCode account.currency = .ok currency ∧
      b.findAccount account.activity currency = none ∧
      b' = { b with accounts := b.accounts ++ [{ account with currency }] } := by
  simp only [addAccount, bind_ok] at h
  obtain ⟨currency, hcode, h⟩ := h
  split at h
  · cases h
  · next hfresh =>
    cases h
    exact ⟨currency, hcode, by simpa using hfresh, rfl⟩

theorem loadRate_ok {rate : NewRate} (h : b.loadRate rate = .ok b') :
    ∃ valid, rate.validated = .ok valid ∧ b' = (b.insertRate valid).2 := by
  unfold loadRate at h
  split at h
  · next valid hvalid =>
    cases h
    exact ⟨valid, hvalid, rfl⟩
  · cases h

theorem ofSnapshot_invariant {I : Book → Prop} {snapshot : Snapshot}
    (currency : ∀ b c b', I b → b.addCurrency c = .ok b' → I b')
    (rate : ∀ b r b', I b → b.loadRate r = .ok b' → I b')
    (cashier : ∀ b c b', I b → b.addCashier c = .ok b' → I b')
    (account : ∀ b a b', I b → b.addAccount a = .ok b' → I b')
    (hempty : I empty) (h : ofSnapshot snapshot = .ok b) : I b := by
  simp only [ofSnapshot, bind_ok] at h
  obtain ⟨b₁, h₁, b₂, h₂, b₃, h₃, h₄⟩ := h
  have hcurrencies : I b₁ := foldlM_invariant currency hempty h₁
  have hrates : I b₂ := foldlM_invariant rate hcurrencies h₂
  have hcashiers : I b₃ := foldlM_invariant cashier hrates h₃
  exact foldlM_invariant account hcashiers h₄

theorem ofSnapshot_unused {snapshot : Snapshot} (h : ofSnapshot snapshot = .ok b) :
    b.exchanges = [] ∧ b.transactions = [] ∧ b.journal = [] := by
  refine ofSnapshot_invariant
    (I := fun b => b.exchanges = [] ∧ b.transactions = [] ∧ b.journal = [])
    ?_ ?_ ?_ ?_ ⟨rfl, rfl, rfl⟩ h
  · intro b c b' hb hc
    obtain ⟨code, -, -, -, rfl⟩ := addCurrency_ok hc
    exact hb
  · intro b r b' hb hr
    obtain ⟨valid, -, rfl⟩ := loadRate_ok hr
    exact hb
  · intro b c b' hb hc
    obtain ⟨-, rfl⟩ := addCashier_ok hc
    exact hb
  · intro b a b' hb ha
    obtain ⟨currency, -, -, rfl⟩ := addAccount_ok ha
    exact hb

end Book

-- ---------------------------------------------------------------------------
-- A small desk
-- ---------------------------------------------------------------------------

def Decimal.whole (mantissa : Nat) (h : mantissa < mantissaBound := by decide) : Decimal :=
  { negative := false, mantissa, scale := 0, mantissa_lt := h, scale_le := Nat.zero_le maxScale }

def hundred : Decimal := .whole 100

def openingDay : Date := ⟨2026, 7, 1, by decide⟩

def smallDesk : Snapshot :=
  { currencies := [⟨⟨"UGX"⟩, "Uganda Shilling", 0, none, none, true⟩,
      ⟨⟨"USD"⟩, "US Dollar", 2, none, none, false⟩, ⟨⟨"EUR"⟩, "Euro", 2, none, none, false⟩]
    rates := [⟨openingDay, .buying, ⟨"USD"⟩, .whole 3650⟩,
      ⟨openingDay, .selling, ⟨"USD"⟩, .whole 3700⟩,
      ⟨openingDay, .buying, ⟨"EUR"⟩, .whole 4000⟩,
      ⟨openingDay, .selling, ⟨"EUR"⟩, .whole 4100⟩]
    cashiers := [⟨⟨1⟩, ⟨7⟩, ⟨1⟩, ⟨1⟩⟩]
    accounts := [⟨.cashAtMainVault, ⟨"UGX"⟩, ⟨11⟩⟩, ⟨.cashAtTeller, ⟨"UGX"⟩, ⟨12⟩⟩,
      ⟨.cashAtMainVault, ⟨"USD"⟩, ⟨21⟩⟩, ⟨.cashAtTeller, ⟨"USD"⟩, ⟨22⟩⟩,
      ⟨.cashAtMainVault, ⟨"EUR"⟩, ⟨31⟩⟩, ⟨.cashAtTeller, ⟨"EUR"⟩, ⟨32⟩⟩] }

def smallBook : Book := (Book.ofSnapshot smallDesk).toOption.getD .empty

theorem smallBook_loaded : Book.ofSnapshot smallDesk = .ok smallBook := by rfl

end ExchangeDesk
