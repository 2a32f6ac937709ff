/-! # The calendar

Days are counted from 1 January of year 1 in the Gregorian calendar, which is day 0. -/

namespace JobControl.Calendar

def isLeap (year : Nat) : Bool :=
  year % 4 == 0 && (year % 100 != 0 || year % 400 == 0)

def monthLengths (leap : Bool) : List Nat :=
  [31, if leap then 29 else 28, 31, 30, 31, 30, 31, 31, 30, 31, 30, 31]

def yearStart (year : Nat) : Nat :=
  let y := year - 1
  365 * y + y / 4 - y / 100 + y / 400

/-- The last year that can be written with four digits. -/
def lastYear : Nat := 9999

/-- The number of the first day after `lastYear`. -/
def dayLimit : Nat := yearStart (lastYear + 1)

/-- Whether a year has such a day. Here there is a year 0, which is a leap year. -/
def isDate (year month day : Nat) : Bool :=
  1 ≤ month && month ≤ 12 && 1 ≤ day && day ≤ (monthLengths (isLeap year)).getD (month - 1) 0

/-- The number of a day given by year, month and day of the month, if there is such a day in the
years 1 to `lastYear`. -/
def dayNumber? (year month day : Nat) : Option Nat :=
  if 1 ≤ year ∧ year ≤ lastYear ∧ isDate year month day then
    let past := (monthLengths (isLeap year)).take (month - 1)
    some (yearStart year + past.foldl (· + ·) 0 + (day - 1))
  else none

/-- 1 January 1970, from which Unix times are counted. -/
def unixEpoch : Nat := yearStart 1970

/-- Find the month in which day `n` of the year falls; `month` numbers the first length. -/
def monthAndDay (month n : Nat) : List Nat → Nat × Nat
  | [] => (month, n + 1)
  | length :: rest =>
    if n < length then (month, n + 1) else monthAndDay (month + 1) (n - length) rest

/-- The year in which a day falls: the cycles of 400, 100 and 4 years are counted off, and the last
day of a cycle still belongs to its last year. -/
def yearOf (n : Nat) : Nat :=
  let n400 := n / 146097
  let r := n % 146097
  let n100 := min 3 (r / 36524)
  let r := r - n100 * 36524
  let n4 := r / 1461
  let r := r % 1461
  let n1 := min 3 (r / 365)
  400 * n400 + 100 * n100 + 4 * n4 + n1 + 1

def dateOf (n : Nat) : Nat × Nat × Nat :=
  let year := yearOf n
  let (month, day) := monthAndDay 1 (n - yearStart year) (monthLengths (isLeap year))
  (year, month, day)

example : dayNumber? 1 1 1 = some 0 := rfl
example : dayNumber? 2023 2 29 = none := rfl
example : (dayNumber? 2024 2 29).map dateOf = some (2024, 2, 29) := rfl
example : (dayNumber? 2000 12 31).map dateOf = some (2000, 12, 31) := rfl
example : (dayNumber? 9999 12 31).map (· + 1) = some dayLimit := rfl

end JobControl.Calendar
