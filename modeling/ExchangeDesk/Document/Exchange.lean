import ExchangeDesk.Desk.Exchanges
import ExchangeDesk.Document.Setup

/-!
# Exchanges and postings as JSON

Records of exchanges and of what was posted for them, and the requests that
lead to them. How an instant is written is up to the document.
-/

namespace ExchangeDesk

open Json

namespace Json

def direction? : Json → Option Direction := oneOf? (Direction.all.map fun d => (d.name, d))

def entrySide? : Json → Option EntrySide := oneOf? (EntrySide.all.map fun s => (s.name, s))

def instant? : Json → Option Instant
  | .int n => Instant.ofMillis? n
  | _ => none

end Json

namespace ActingUser

def toJson (u : ActingUser) : Json := .obj [("user_id", ofId u.user), ("staff_id", ofId u.staff)]

def ofJson? (j : Json) : Option ActingUser := do
  match ← slots ["user_id", "staff_id"] j with
  | [user, staff] => return { user := ← user.required id?, staff := ← staff.required id? }
  | _ => none

end ActingUser

namespace Client

def toJson (c : Client) : Json := .obj [
  ("client_id", ofOption Json.str c.id),
  ("client_name", ofOption Json.str c.name)]

def ofJson? (j : Json) : Option Client := do
  match ← slots ["client_id", "client_name"] j with
  | [id, name] =>
    return {
      id := ← id.withDefault none (nullable string?)
      name := ← name.withDefault none (nullable string?) }
  | _ => none

end Client

namespace NewExchange

def members (instant : Instant → Json) (e : NewExchange) : List (String × Json) := [
  ("exchange_rate_id", ofId e.rate),
  ("user", e.user.toJson),
  ("currency_from", ofCode e.currencyFrom),
  ("currency_to", ofCode e.currencyTo),
  ("client", e.client.toJson),
  ("transaction_date", ofDate e.date),
  ("created_at", instant e.createdAt),
  ("amount_given", ofDecimal e.amountGiven),
  ("amount_taken", ofDecimal e.amountTaken)]

def fields : List String := [
  "exchange_rate_id", "user", "currency_from", "currency_to", "client", "transaction_date",
  "created_at", "amount_given", "amount_taken"]

def ofSlots? : List Slot → Option NewExchange
  | [rate, user, source, target, client, date, created, given, taken] => do
    return {
      rate := ← rate.required id?
      user := ← user.required ActingUser.ofJson?
      currencyFrom := ← source.required code?
      currencyTo := ← target.required code?
      client := ← client.required Client.ofJson?
      date := ← date.required date?
      createdAt := ← created.required instant?
      amountGiven := ← given.required decimal?
      amountTaken := ← taken.required decimal? }
  | _ => none

def ofJson? (j : Json) : Option NewExchange := do ofSlots? (← slots fields j)

end NewExchange

namespace Exchange

def toJson (instant : Instant → Json) (e : Exchange) : Json :=
  .obj (("id", ofId e.id) :: e.toNewExchange.members instant)

def ofJson? (j : Json) : Option Exchange := do
  match ← slots ("id" :: NewExchange.fields) j with
  | id :: rest => return { ← NewExchange.ofSlots? rest with id := ← id.required id? }
  | [] => none

end Exchange

namespace ExchangeRequest

def ofJson? (j : Json) : Option ExchangeRequest := do
  match ← slots ["currency_from", "currency_to", "amount", "transaction_date", "user",
      "client"] j with
  | [source, target, amount, date, user, client] =>
    return {
      currencyFrom := ← source.required code?
      currencyTo := ← target.required code?
      amount := ← amount.required decimal?
      date := ← date.required date?
      user := ← user.required ActingUser.ofJson?
      client := ← client.withDefault {} Client.ofJson? }
  | _ => none

end ExchangeRequest

namespace CashTransaction

def toJson (t : CashTransaction) : Json := .obj [
  ("cashier_id", ofId t.cashier),
  ("txn_type", .str t.direction.name),
  ("amount", ofDecimal t.amount),
  ("currency", ofCode t.currency),
  ("txn_date", ofDate t.date),
  ("note", ofOption Json.str t.note)]

def ofJson? (j : Json) : Option CashTransaction := do
  match ← slots ["cashier_id", "txn_type", "amount", "currency", "txn_date", "note"] j with
  | [cashier, direction, amount, currency, date, note] =>
    return {
      cashier := ← cashier.required id?
      direction := ← direction.required direction?
      amount := ← amount.required decimal?
      currency := ← currency.required code?
      date := ← date.required date?
      note := ← note.optional string? }
  | _ => none

end CashTransaction

namespace JournalEntry

def toJson (e : JournalEntry) : Json := .obj [
  ("office_id", ofId e.office),
  ("gl_account", ofId e.glAccount),
  ("currency", ofCode e.currency),
  ("exchange_rate_id", ofId e.rate),
  ("transaction_id", .str e.correlation.text),
  ("manual_entry", .bool e.manual),
  ("entry_date", ofDate e.date),
  ("entry_type", .str e.side.name),
  ("amount", ofDecimal e.amount),
  ("description", ofOption Json.str e.description)]

def ofJson? (j : Json) : Option JournalEntry := do
  match ← slots ["office_id", "gl_account", "currency", "exchange_rate_id", "transaction_id",
      "manual_entry", "entry_date", "entry_type", "amount", "description"] j with
  | [office, account, currency, rate, correlation, manual, date, side, amount, description] =>
    return {
      office := ← office.required id?
      glAccount := ← account.required id?
      currency := ← currency.required code?
      rate := ← rate.required id?
      correlation := ⟨← correlation.required string?⟩
      manual := ← manual.required bool?
      date := ← date.required date?
      side := ← side.required entrySide?
      amount := ← amount.required decimal?
      description := ← description.optional string? }
  | _ => none

end JournalEntry

namespace CashMovement

def toJson (m : CashMovement) : Json := .obj [
  ("cashier_transaction", m.transaction.toJson),
  ("debit", m.debit.toJson),
  ("credit", m.credit.toJson)]

end CashMovement

namespace LegPostings

def toJson (p : LegPostings) : Json := .obj [
  ("outward", p.outward.toJson),
  ("inward", p.inward.toJson)]

end LegPostings

namespace ExecutedLeg

def toJson (instant : Instant → Json) (leg : ExecutedLeg) : Json := .obj [
  ("exchange", leg.exchange.toJson instant),
  ("postings", leg.postings.toJson)]

end ExecutedLeg

namespace RateChange

def toJson : RateChange → Json
  | .date value => .obj [("Date", ofDate value)]
  | .type value => .obj [("RateType", .str value.name)]
  | .currency value => .obj [("Currency", ofCode value)]
  | .amount value => .obj [("Amount", ofDecimal value)]

end RateChange

namespace ExchangeChange

def toJson : ExchangeChange → Json
  | .rate value => .obj [("ExchangeRate", ofId value)]
  | .currencyFrom value => .obj [("CurrencyFrom", ofCode value)]
  | .currencyTo value => .obj [("CurrencyTo", ofCode value)]
  | .clientId value => .obj [("ClientId", ofOption Json.str value)]
  | .clientName value => .obj [("ClientName", ofOption Json.str value)]
  | .date value => .obj [("TransactionDate", ofDate value)]
  | .amountGiven value => .obj [("AmountGiven", ofDecimal value)]
  | .amountTaken value => .obj [("AmountTaken", ofDecimal value)]

end ExchangeChange
end ExchangeDesk
