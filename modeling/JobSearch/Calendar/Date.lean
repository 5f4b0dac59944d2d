import JobSearch.Text.Basic

/-!
# Days of the Gregorian calendar

The calendar is proleptic: its rule of leap years runs backwards to year 0 and below, which are
ordinary years. It ends on both sides, so an operation that would leave it has no result.
-/

namespace JobSearch

/-- The earliest year of the calendar. -/
def minYear : Int := -262143

/-- The latest year of the calendar. -/
def maxYear : Int := 262142

/-- A year has a 29th of February. -/
def isLeap (year : Int) : Bool := year % 4 == 0 && (year % 100 != 0 || year % 400 == 0)

/-- The number of days of a month, counted from 1 for January. -/
def daysInMonth (year : Int) (month : Nat) : Nat :=
  match month with
  | 2 => if isLeap year then 29 else 28
  | 4 | 6 | 9 | 11 => 30
  | _ => 31

/-- The three numbers name a day of the calendar. -/
def IsDay (year : Int) (month day : Nat) : Prop :=
  (minYear ≤ year ∧ year ≤ maxYear) ∧ (1 ≤ month ∧ month ≤ 12) ∧
    1 ≤ day ∧ day ≤ daysInMonth year month

instance (year : Int) (month day : Nat) : Decidable (IsDay year month day) :=
  inferInstanceAs (Decidable (_ ∧ _))

/-- A day of the calendar. -/
structure Date where
  /-- The year, zero and negative years included. -/
  year : Int
  /-- The month, from 1 for January. -/
  month : Nat
  /-- The day of the month, from 1. -/
  day : Nat
  /-- The calendar has this day. -/
  isDay : IsDay year month day
  deriving DecidableEq

namespace Date

/-- The day with these numbers, if the calendar has it. -/
def ofYMD? (year : Int) (month day : Nat) : Option Date :=
  if h : IsDay year month day then some ⟨year, month, day, h⟩ else none

/-- Every day is found by its own numbers. -/
@[simp] theorem ofYMD?_self (d : Date) : ofYMD? d.year d.month d.day = some d := by
  simp only [ofYMD?, d.isDay, dif_pos]

/-- The number of months since January of year 0. -/
def monthIndex (d : Date) : Int := 12 * d.year + (d.month - 1 : Nat)

/-- The year of a month given by its number since January of year 0. -/
def yearOfIndex (index : Int) : Int := index / 12

/-- The month within its year of a month given by its number since January of year 0. -/
def monthOfIndex (index : Int) : Nat := (index % 12).toNat + 1

/-- The year is the one that the number of the month gives. -/
@[simp] theorem yearOfIndex_monthIndex (d : Date) : yearOfIndex d.monthIndex = d.year := by
  have h := d.isDay.2.1
  simp only [yearOfIndex, monthIndex]
  omega

/-- The month is the one that its number gives. -/
@[simp] theorem monthOfIndex_monthIndex (d : Date) : monthOfIndex d.monthIndex = d.month := by
  have h := d.isDay.2.1
  simp only [monthOfIndex, monthIndex]
  omega

/-- The first day of a month given by its number since January of year 0. -/
def firstOfIndex? (index : Int) : Option Date := ofYMD? (yearOfIndex index) (monthOfIndex index) 1

/-- The same day of the month some months later, or the last day of that month if it is shorter. -/
def addMonths? (d : Date) (months : Int) : Option Date :=
  let year := yearOfIndex (d.monthIndex + months)
  let month := monthOfIndex (d.monthIndex + months)
  ofYMD? year month (min d.day (daysInMonth year month))

/-- The day after. -/
def tomorrow? (d : Date) : Option Date :=
  if d.day < daysInMonth d.year d.month then ofYMD? d.year d.month (d.day + 1)
  else firstOfIndex? (d.monthIndex + 1)

/-- The day before. -/
def yesterday? (d : Date) : Option Date :=
  if 1 < d.day then ofYMD? d.year d.month (d.day - 1)
  else
    let year := yearOfIndex (d.monthIndex - 1)
    let month := monthOfIndex (d.monthIndex - 1)
    ofYMD? year month (daysInMonth year month)

end Date

/-- A year in four digits, with a sign in front when it lies outside 0 to 9999. -/
def signedYear (year : Int) : Text :=
  let digits := Text.padZero 4 (Text.ofNat year.natAbs)
  if year < 0 then '-' :: digits else if 9999 < year then '+' :: digits else digits

/-- A number in at least two digits. -/
def twoDigits (n : Nat) : Text := Text.padZero 2 (Text.ofNat n)

/-- The day written year, month, day, with a signed year outside 0 to 9999. -/
def Date.iso (d : Date) : Text :=
  signedYear d.year ++ '-' :: twoDigits d.month ++ '-' :: twoDigits d.day

end JobSearch
