import ExchangeDesk.Book.Snapshot
import ExchangeDesk.Calendar.Reader
import ExchangeDesk.Json.Reader
import ExchangeDesk.Json.Record

/-!
# The setup of an organisation as JSON

Currencies, rates, cashiers, ledger accounts and the snapshot that holds them
all: how each is written, and how it is read.
-/

namespace ExchangeDesk

namespace Json

def ofDecimal (d : Decimal) : Json := .str d.text

def ofDate (d : Date) : Json := .str d.text

def ofCode (c : CurrencyCode) : Json := .str c.text

def ofId {entity : Entity} (id : Id entity) : Json := ofNat id.number

def code? (j : Json) : Option CurrencyCode := (string? j).map (⟨·⟩)

def id? {entity : Entity} (j : Json) : Option (Id entity) := (word64? j).map (⟨·⟩)

def date? (j : Json) : Option Date := (string? j).bind fun s => (Date.read .loose s).toOption

def rateType? : Json → Option RateType := oneOf? (RateType.all.map fun t => (t.name, t))

def activity? : Json → Option Activity := oneOf? (Activity.all.map fun a => (a.name, a))

end Json

open Json

namespace Currency

def toJson (c : Currency) : Json := .obj [
  ("code", ofCode c.code),
  ("name", .str c.name),
  ("decimal_places", ofNat c.decimalPlaces.toNat),
  ("in_multiples_of", ofOption (fun n : UInt32 => ofNat n.toNat) c.multiple),
  ("display_symbol", ofOption Json.str c.symbol),
  ("is_home_currency", .bool c.isHome)]

def ofJson? (j : Json) : Option Currency := do
  match ← slots ["code", "name", "decimal_places", "in_multiples_of", "display_symbol",
      "is_home_currency"] j with
  | [code, name, places, multiple, symbol, home] =>
    return {
      code := ← code.required code?
      name := ← name.required string?
      decimalPlaces := ← places.required word32?
      multiple := ← multiple.withDefault none (nullable word32?)
      symbol := ← symbol.withDefault none (nullable string?)
      isHome := ← home.withDefault false bool? }
  | _ => none

end Currency

namespace NewRate

def members (r : NewRate) : List (String × Json) := [
  ("date", ofDate r.date),
  ("rate_type", .str r.type.name),
  ("currency", ofCode r.currency),
  ("amount", ofDecimal r.amount)]

def toJson (r : NewRate) : Json := .obj r.members

def ofJson? (j : Json) : Option NewRate := do
  match ← slots ["date", "rate_type", "currency", "amount"] j with
  | [date, type, currency, amount] =>
    return {
      date := ← date.required date?
      type := ← type.required rateType?
      currency := ← currency.required code?
      amount := ← amount.required decimal? }
  | _ => none

end NewRate

namespace Rate

def toJson (r : Rate) : Json := .obj (("id", ofId r.id) :: r.toNewRate.members)

def ofJson? (j : Json) : Option Rate := do
  match ← slots ["id", "date", "rate_type", "currency", "amount"] j with
  | [id, date, type, currency, amount] =>
    return {
      id := ← id.required id?
      date := ← date.required date?
      type := ← type.required rateType?
      currency := ← currency.required code?
      amount := ← amount.required decimal? }
  | _ => none

end Rate

namespace Cashier

def toJson (c : Cashier) : Json := .obj [
  ("id", ofId c.id),
  ("staff_id", ofId c.staff),
  ("teller_id", ofId c.teller),
  ("office_id", ofId c.office)]

def ofJson? (j : Json) : Option Cashier := do
  match ← slots ["id", "staff_id", "teller_id", "office_id"] j with
  | [id, staff, teller, office] =>
    return {
      id := ← id.required id?
      staff := ← staff.required id?
      teller := ← teller.required id?
      office := ← office.required id? }
  | _ => none

end Cashier

namespace ActivityAccount

def toJson (a : ActivityAccount) : Json := .obj [
  ("activity", .str a.activity.name),
  ("currency", ofCode a.currency),
  ("gl_account", ofId a.glAccount)]

def ofJson? (j : Json) : Option ActivityAccount := do
  match ← slots ["activity", "currency", "gl_account"] j with
  | [activity, currency, account] =>
    return {
      activity := ← activity.required activity?
      currency := ← currency.required code?
      glAccount := ← account.required id? }
  | _ => none

end ActivityAccount

namespace Snapshot

def toJson (s : Snapshot) : Json := .obj [
  ("currencies", list Currency.toJson s.currencies),
  ("rates", list NewRate.toJson s.rates),
  ("cashiers", list Cashier.toJson s.cashiers),
  ("financial_activity_accounts", list ActivityAccount.toJson s.accounts)]

def ofJson? (j : Json) : Option Snapshot := do
  match ← slots ["currencies", "rates", "cashiers", "financial_activity_accounts"] j with
  | [currencies, rates, cashiers, accounts] =>
    return {
      currencies := ← currencies.required (list? Currency.ofJson?)
      rates := ← rates.withDefault [] (list? NewRate.ofJson?)
      cashiers := ← cashiers.withDefault [] (list? Cashier.ofJson?)
      accounts := ← accounts.withDefault [] (list? ActivityAccount.ofJson?) }
  | _ => none

def read? (text : String) : Option Snapshot := (Json.read text).bind ofJson?

end Snapshot
end ExchangeDesk
