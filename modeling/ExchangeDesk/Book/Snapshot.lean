import ExchangeDesk.Book.Basic

/-!
# Snapshots

The setup of an organisation as it is kept in a file. A snapshot is loaded
element by element into an empty book, in the order currencies, rates,
cashiers, accounts; the first element that the book refuses ends the loading.
-/

namespace ExchangeDesk

structure Snapshot where
  currencies : List Currency
  rates : List NewRate := []
  cashiers : List Cashier := []
  accounts : List ActivityAccount := []
  deriving DecidableEq, Repr

namespace Book

def loadRate (b : Book) (rate : NewRate) : Except StoreError Book :=
  match rate.validated with
  | .ok rate => .ok (b.insertRate rate).2
  | .error e => .error (.constraintViolation e.message)

def ofSnapshot (s : Snapshot) : Except StoreError Book := do
  let b ← s.currencies.foldlM addCurrency empty
  let b ← s.rates.foldlM loadRate b
  let b ← s.cashiers.foldlM addCashier b
  s.accounts.foldlM addAccount b

end Book
end ExchangeDesk
