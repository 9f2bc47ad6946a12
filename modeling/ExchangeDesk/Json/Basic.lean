import ExchangeDesk.Decimal.Double

/-!
# JSON values

A document as a tree. Objects keep their members in order, repeated names
included. Numbers are either whole numbers of 64 bits or magnitudes of double
precision with a sign.
-/

namespace ExchangeDesk

inductive Json where
  | null
  | bool (value : Bool)
  | int (value : Int)
  | double (negative : Bool) (magnitude : Double)
  | str (text : String)
  | arr (items : List Json)
  | obj (members : List (String × Json))
  /-- Well-formed text without a value: a number beyond double precision or a
  string with half of a surrogate pair. It may stand only where nothing reads
  it. -/
  | unusable
  deriving Repr

namespace Json

instance : Inhabited Json := ⟨.null⟩

def ofNat (n : Nat) : Json := .int n

def ofOption {α : Type} (encode : α → Json) : Option α → Json
  | some a => encode a
  | none => .null

def list {α : Type} (encode : α → Json) (items : List α) : Json := .arr (items.map encode)

end Json
end ExchangeDesk
