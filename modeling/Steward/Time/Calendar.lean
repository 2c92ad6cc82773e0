/-
# Days of the proleptic Gregorian calendar

A day is counted from 1970-01-01. Years are counted from March, so the leap day ends a year and the
days before each month follow one line (153 days for every five months).

Key definitions: `Date`, `Date.valid`, `Date.toDay`, `Date.ofDay`.
-/
namespace Steward

/-- A day by year, month and day of the month. -/
structure Date where
  year : Int
  month : Nat
  day : Nat
deriving DecidableEq

namespace Date

def leapYear (y : Int) : Bool := y % 4 == 0 && (y % 100 != 0 || y % 400 == 0)

def daysInMonth (y : Int) (m : Nat) : Nat :=
  if m = 2 then (if leapYear y then 29 else 28)
  else if m = 4 ∨ m = 6 ∨ m = 9 ∨ m = 11 then 30
  else 31

/-- Whether the calendar has such a day. -/
def valid (d : Date) : Bool :=
  1 ≤ d.month && d.month ≤ 12 && 1 ≤ d.day && d.day ≤ daysInMonth d.year d.month

/-- The days from 1970-01-01 to the date. -/
def toDay (d : Date) : Int :=
  let y := if d.month ≤ 2 then d.year - 1 else d.year
  let era := y / 400
  let yearOfEra := y % 400
  let month : Int := (d.month + 9) % 12
  let dayOfYear := (153 * month + 2) / 5 + d.day - 1
  let dayOfEra := yearOfEra * 365 + yearOfEra / 4 - yearOfEra / 100 + dayOfYear
  era * 146097 + dayOfEra - 719468

/-- The date that many days after 1970-01-01. -/
def ofDay (n : Int) : Date :=
  let z := n + 719468
  let era := z / 146097
  let dayOfEra := z % 146097
  let yearOfEra :=
    (dayOfEra - dayOfEra / 1460 + dayOfEra / 36524 - dayOfEra / 146096) / 365
  let dayOfYear := dayOfEra - (365 * yearOfEra + yearOfEra / 4 - yearOfEra / 100)
  let month := (5 * dayOfYear + 2) / 153
  let day := dayOfYear - (153 * month + 2) / 5 + 1
  let m := if month < 10 then month + 3 else month - 9
  ⟨yearOfEra + era * 400 + (if m ≤ 2 then 1 else 0), m.toNat, day.toNat⟩

example : (Date.mk 1970 1 1).toDay = 0 ∧ (Date.mk 2000 2 29).toDay = 11016 := by decide
example : Date.ofDay 11016 = ⟨2000, 2, 29⟩ ∧ Date.ofDay (-1) = ⟨1969, 12, 31⟩ := by decide
example : (Date.mk 1900 2 29).valid = false ∧ Date.ofDay (-719529) = ⟨-1, 12, 31⟩ := by decide

end Date
end Steward
