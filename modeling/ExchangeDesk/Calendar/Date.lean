import ExchangeDesk.Text.Numeral

/-!
# Dates

Days of the proleptic Gregorian calendar, from the first of January of the year
-262143 to the last of December of the year 262142. Dates are ordered by year,
month and day, which is the order of their keys.
-/

namespace ExchangeDesk

def isLeapYear (year : Int) : Bool :=
  year % 4 = 0 && (year % 100 != 0 || year % 400 = 0)

def daysInMonth (year : Int) (month : Nat) : Nat :=
  if month = 2 then (if isLeapYear year then 29 else 28)
  else if month = 4 ∨ month = 6 ∨ month = 9 ∨ month = 11 then 30
  else 31

def IsDate (year : Int) (month day : Nat) : Prop :=
  (-262143 ≤ year ∧ year ≤ 262142) ∧ (1 ≤ month ∧ month ≤ 12) ∧
    1 ≤ day ∧ day ≤ daysInMonth year month

instance (year : Int) (month day : Nat) : Decidable (IsDate year month day) := by
  unfold IsDate
  infer_instance

structure Date where
  year : Int
  month : Nat
  day : Nat
  isDate : IsDate year month day
  deriving DecidableEq, Repr

namespace Date

open Text (padded)

def ofParts? (year : Int) (month day : Nat) : Option Date :=
  if h : IsDate year month day then some ⟨year, month, day, h⟩ else none

/-- Months and days have room in five bits each. -/
def key (d : Date) : Int := (d.year * 32 + d.month) * 32 + d.day

instance : LE Date := ⟨fun a b => a.key ≤ b.key⟩

instance : LT Date := ⟨fun a b => a.key < b.key⟩

instance (a b : Date) : Decidable (a ≤ b) := Int.decLe _ _

instance (a b : Date) : Decidable (a < b) := Int.decLt _ _

theorem daysInMonth_le (year : Int) (month : Nat) : daysInMonth year month ≤ 31 := by
  unfold daysInMonth
  split
  · split <;> omega
  · split <;> omega

theorem key_injective {a b : Date} (h : a.key = b.key) : a = b := by
  have ha := a.isDate
  have hb := b.isDate
  have la := daysInMonth_le a.year a.month
  have lb := daysInMonth_le b.year b.month
  unfold IsDate at ha hb
  unfold key at h
  have hy : a.year = b.year := by omega
  have hm : a.month = b.month := by omega
  have hd : a.day = b.day := by omega
  cases a; cases b
  simp_all

-- ---------------------------------------------------------------------------
-- Text
-- ---------------------------------------------------------------------------

/-- Years outside of four digits carry their sign. -/
def yearChars (year : Int) : List Char :=
  if 0 ≤ year ∧ year ≤ 9999 then padded 4 year.natAbs
  else (if year < 0 then '-' else '+') :: padded 4 year.natAbs

def chars (d : Date) : List Char :=
  yearChars d.year ++ '-' :: padded 2 d.month ++ '-' :: padded 2 d.day

def text (d : Date) : String := String.ofList d.chars

instance : ToString Date := ⟨text⟩

end Date
end ExchangeDesk
