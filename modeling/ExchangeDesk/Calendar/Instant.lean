import ExchangeDesk.Calendar.Date

/-!
# Instants

A point in time is a number of nanoseconds since the start of 1970 in
universal time. It is written as date and time of day with a Z at the end.
-/

namespace ExchangeDesk

structure Instant where
  nanos : Int
  deriving DecidableEq, Repr

namespace Instant

open Text (padded)

instance : LE Instant := ⟨fun a b => a.nanos ≤ b.nanos⟩

instance : LT Instant := ⟨fun a b => a.nanos < b.nanos⟩

instance (a b : Instant) : Decidable (a ≤ b) := Int.decLe _ _

instance (a b : Instant) : Decidable (a < b) := Int.decLt _ _

def millis (t : Instant) : Int := t.nanos / 1000000

def ofMillis? (millis : Int) : Option Instant :=
  if -8334601228800000 ≤ millis ∧ millis ≤ 8210266876799999 then
    some ⟨millis * 1000000⟩
  else none

/-- Year, month and day of a day counted from the start of 1970. Years are
taken to begin in March, so that a leap day is the last day of its year. -/
def civil (days : Int) : Int × Nat × Nat :=
  let shifted := days + 719468
  let era := shifted / 146097
  let dayOfEra := (shifted % 146097).toNat
  let yearOfEra := (dayOfEra - dayOfEra / 1460 + dayOfEra / 36524 - dayOfEra / 146096) / 365
  let dayOfYear := dayOfEra - (365 * yearOfEra + yearOfEra / 4 - yearOfEra / 100)
  let march := (5 * dayOfYear + 2) / 153
  let day := dayOfYear - (153 * march + 2) / 5 + 1
  let month := if march < 10 then march + 3 else march - 9
  (yearOfEra + era * 400 + (if month ≤ 2 then 1 else 0), month, day)

def secondsChars (t : Instant) : List Char :=
  let (year, month, day) := civil (t.nanos / 86400000000000)
  let seconds := (t.nanos % 86400000000000 / 1000000000).toNat
  Date.yearChars year ++ '-' :: padded 2 month ++ '-' :: padded 2 day ++
    'T' :: padded 2 (seconds / 3600) ++ ':' :: padded 2 (seconds / 60 % 60) ++
    ':' :: padded 2 (seconds % 60)

/-- The part of a second, to as many groups of three digits as it takes. -/
def fractionChars (t : Instant) : List Char :=
  let nanos := (t.nanos % 1000000000).toNat
  if nanos = 0 then []
  else if nanos % 1000000 = 0 then '.' :: padded 3 (nanos / 1000000)
  else if nanos % 1000 = 0 then '.' :: padded 6 (nanos / 1000)
  else '.' :: padded 9 nanos

def text (t : Instant) : String := String.ofList (t.secondsChars ++ t.fractionChars ++ ['Z'])

def secondsText (t : Instant) : String := String.ofList (t.secondsChars ++ ['Z'])

end Instant
end ExchangeDesk
