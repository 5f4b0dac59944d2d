import JobSearch.Calendar.Date
import JobSearch.Error

/-!
# Months as date bounds

Every bound of a query is the first day of a month, so moving by months never depends on the
length of a month. A month is written in two ways: as the value of a date operator, and as the
label that a reader sees.
-/

namespace JobSearch

/-- The first day of the month that lies some months away from the month of `d`. -/
def shiftMonth (d : Date) (months : Int) : Except QueryError Date :=
  match Date.firstOfIndex? (d.monthIndex + months) with
  | some e => .ok e
  | none => .error (.dateOutOfRange d months)

/-- A year at least four characters wide, a minus sign counted. -/
def operatorYear (year : Int) : Text :=
  if year < 0 then '-' :: Text.padZero 3 (Text.ofNat year.natAbs)
  else Text.padZero 4 (Text.ofNat year.natAbs)

/-- The month of a day as the value of a date operator: its first day. -/
def operatorDate (d : Date) : Text :=
  operatorYear d.year ++ '-' :: twoDigits d.month ++ "-01".toList

/-- The English name of a month. -/
def monthName (month : Nat) : Text :=
  match month with
  | 1 => "January".toList
  | 2 => "February".toList
  | 3 => "March".toList
  | 4 => "April".toList
  | 5 => "May".toList
  | 6 => "June".toList
  | 7 => "July".toList
  | 8 => "August".toList
  | 9 => "September".toList
  | 10 => "October".toList
  | 11 => "November".toList
  | _ => "December".toList

/-- The month of a day as a reader sees it, such as `January, 2023`. -/
def monthLabel (d : Date) : Text := monthName d.month ++ ", ".toList ++ signedYear d.year

end JobSearch
