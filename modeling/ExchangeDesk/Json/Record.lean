import ExchangeDesk.Decimal.Reader
import ExchangeDesk.Json.Basic

/-!
# Reading records out of JSON values

A record is written as an object with its fields as members, or as an array of
its fields in order. In an object members of other names are ignored, and a
field that stands twice is refused; in an array there may be no further items.
Each kind of field says what its absence means.
-/

namespace ExchangeDesk.Json

inductive Slot where
  | given (value : Json)
  /-- The object has no such member. -/
  | missing
  /-- The array ends before the field. -/
  | cutOff
  deriving Repr

def memberSlot (members : List (String × Json)) (name : String) : Option Slot :=
  match members.filter (·.1 == name) with
  | [] => some .missing
  | [(_, value)] => some (.given value)
  | _ => none

def slots (names : List String) : Json → Option (List Slot)
  | .obj members => names.mapM (memberSlot members)
  | .arr items =>
    if items.length ≤ names.length then
      some (items.map .given ++ List.replicate (names.length - items.length) .cutOff)
    else none
  | _ => none

-- ---------------------------------------------------------------------------
-- Fields
-- ---------------------------------------------------------------------------

def Slot.required {α : Type} (decode : Json → Option α) : Slot → Option α
  | .given value => decode value
  | _ => none

/-- Left out, the field has its default; null is no default. -/
def Slot.withDefault {α : Type} (default : α) (decode : Json → Option α) : Slot → Option α
  | .given value => decode value
  | _ => some default

def nullable {α : Type} (decode : Json → Option α) : Json → Option (Option α)
  | .null => some none
  | value => (decode value).map some

def Slot.optional {α : Type} (decode : Json → Option α) : Slot → Option (Option α)
  | .given value => nullable decode value
  | .missing => some none
  | .cutOff => none

-- ---------------------------------------------------------------------------
-- Scalars
-- ---------------------------------------------------------------------------

def bool? : Json → Option Bool
  | .bool b => some b
  | _ => none

def string? : Json → Option String
  | .str s => some s
  | _ => none

def natBelow? (bound : Nat) : Json → Option Nat
  | .int n => if 0 ≤ n ∧ n < bound then some n.toNat else none
  | _ => none

def word32? : Json → Option UInt32
  | j => (natBelow? UInt32.size j).map UInt32.ofNat

def word64? : Json → Option Nat := natBelow? UInt64.size

def list? {α : Type} (decode : Json → Option α) : Json → Option (List α)
  | .arr items => items.mapM decode
  | _ => none

/-- One of several names: a string, or an object with that name alone, set to
null. -/
def oneOf? {α : Type} (names : List (String × α)) : Json → Option α
  | .str s => names.lookup s
  | .obj [(name, .null)] => names.lookup name
  | _ => none

/-- An amount is a string in plain or scientific notation, a whole number, or a
fraction by way of its shortest decimal text. -/
def decimal? : Json → Option Decimal
  | .str s => (Decimal.read s).toOption
  | .int n => Decimal.ofParts? (n < 0) n.natAbs 0
  | .double negative x =>
    (Decimal.readPlainChars ((if negative then ['-'] else []) ++ x.text)).toOption
  | _ => none

end ExchangeDesk.Json
