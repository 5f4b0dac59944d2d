import JobSearch.Calendar.Date
import JobSearch.Text.Pattern

/-!
# Phrases that name a day

Five patterns for the ways in which people write dates, and for each the day that its pieces name.
A piece may match without naming anything: digits of other scripts are digits to a pattern but no
number, and a month may be written with a long s that its name does not have.
-/

namespace JobSearch.Phrase

open Pattern

/-- Between one and `most` digits. -/
def digits (most : Nat) : Pattern Text := oneUpTo CharClass.isDigit most

/-- The four digits of a year. -/
def yearDigits : Pattern Text := exactly CharClass.isDigit 4

/-- A single given character. -/
def mark (c : Char) : Pattern Char := char (· == c)

/-- One or more white space characters. -/
def gap : Pattern Unit := many Text.isBlank

/-- A word of which a longer form is preferred: the stem, then an ending. -/
def stem (start : String) (ending : Pattern Text) : Pattern Text := do
  let a ← letters start.toList
  let b ← optional ending
  return a ++ b.getD []

/-- A fixed word in either case. -/
def word (t : String) : Pattern Text := letters t.toList

/-- The name of a month, in full or cut short. -/
def month : Pattern Text :=
  oneOf [stem "jan" (word "uary"), stem "feb" (word "ruary"), stem "mar" (word "ch"),
    stem "apr" (word "il"), word "may", stem "jun" (word "e"), stem "jul" (word "y"),
    stem "aug" (word "ust"), stem "sep" (stem "t" (word "ember")), stem "oct" (word "ober"),
    stem "nov" (word "ember"), stem "dec" (word "ember")]

/-- The ending of an ordinal number. -/
def ordinalEnding : Pattern Text := oneOf [word "st", word "nd", word "rd", word "th"]

/-- The number of a month, told by the first three letters of its name. -/
def monthNumber? (name : Text) : Option Nat :=
  let first := Text.lower (name.take 3)
  let names := ["jan", "feb", "mar", "apr", "may", "jun", "jul", "aug", "sep", "oct", "nov", "dec"]
  (names.findIdx? fun n => n.toList == first).map (· + 1)

/-- The day named by a year, a month and a day in digits. -/
def dayOfDigits? (year month day : Text) : Option Date := do
  Date.ofYMD? (← Text.toNat? year) (← Text.toNat? month) (← Text.toNat? day)

/-- A way to write a day: the pattern of its pieces and the day that they name. -/
structure Form where
  /-- What the pattern reads. -/
  Pieces : Type
  /-- The pattern. -/
  pattern : Pattern Pieces
  /-- The day that the pieces name, seen from a reference day. -/
  day? : (reference : Date) → Pieces → Option Date

/-- Year, month and day in digits, such as `2023-02-01`. -/
def isoDay : Form where
  Pieces := Text × Text × Text
  pattern := do
    boundary
    let year ← yearDigits
    let _ ← mark '-'
    let month ← digits 2
    let _ ← mark '-'
    let day ← digits 2
    boundary
    return (year, month, day)
  day? _ := fun (year, month, day) => dayOfDigits? year month day

/-- Year and month in digits, such as `2023-02`, for the first day of the month. -/
def yearMonth : Form where
  Pieces := Text × Text
  pattern := do
    boundary
    let year ← yearDigits
    let _ ← mark '-'
    let month ← digits 2
    boundary
    return (year, month)
  day? _ := fun (year, month) => dayOfDigits? year month ['1']

/-- A month name, perhaps a day, and a year, such as `March 5th, 2022`. Without a readable day it is
the first of the month. -/
def monthDayYear : Form where
  Pieces := Text × Option Text × Text
  pattern := do
    boundary
    let name ← month
    let _ ← optional (mark '.')
    let day ← optional do
      gap
      let day ← digits 2
      let _ ← optional ordinalEnding
      return day
    let _ ← optional (mark ',')
    gap
    let year ← yearDigits
    boundary
    return (name, day, year)
  day? _ := fun (name, day, year) => do
    Date.ofYMD? (← Text.toNat? year) (← monthNumber? name) ((day.bind Text.toNat?).getD 1)

/-- A day, a month name and a year, such as `5 March 2022`. -/
def dayMonthYear : Form where
  Pieces := Text × Text × Text
  pattern := do
    boundary
    let day ← digits 2
    let _ ← optional ordinalEnding
    gap
    let name ← month
    let _ ← optional (mark '.')
    let _ ← optional (mark ',')
    gap
    let year ← yearDigits
    boundary
    return (day, name, year)
  day? _ := fun (day, name, year) => do
    Date.ofYMD? (← Text.toNat? year) (← monthNumber? name) (← Text.toNat? day)

/-- A phrase that counts from the reference day. -/
inductive Relative where
  /-- A phrase of fixed words, as they are written. -/
  | words (ws : List Text)
  /-- A number of months ago, in digits. -/
  | monthsAgo (count : Text)
  deriving DecidableEq, Repr

/-- The day that a relative phrase names. -/
def Relative.day? (reference : Date) : Relative → Option Date
  | .monthsAgo count => do reference.addMonths? (-(← Text.toNat? count : Nat))
  | .words ws =>
    let phrase := String.ofList (Text.lower (Text.unwords ws))
    if phrase = "today" ∨ phrase = "now" then some reference
    else if phrase = "yesterday" then reference.yesterday?
    else if phrase = "tomorrow" then reference.tomorrow?
    else if phrase = "last month" then reference.addMonths? (-1)
    else if phrase = "next month" then reference.addMonths? 1
    else none

/-- One word of a relative phrase. -/
def oneWord (t : String) : Pattern Relative := do
  return .words [← word t]

/-- Two words of a relative phrase. -/
def twoWords (s t : String) : Pattern Relative := do
  let a ← word s
  gap
  let b ← word t
  return .words [a, b]

/-- A number of months ago. -/
def monthsAgo : Pattern Relative := do
  let count ← digits 4
  gap
  let _ ← stem "month" (word "s")
  gap
  let _ ← word "ago"
  return .monthsAgo count

/-- A phrase that counts from the reference day, such as `3 months ago`. -/
def relative : Form where
  Pieces := Relative
  pattern := do
    boundary
    let phrase ← oneOf [oneWord "today", oneWord "now", oneWord "yesterday", oneWord "tomorrow",
      twoWords "last" "month", twoWords "next" "month", monthsAgo]
    boundary
    return phrase
  day? := Relative.day?

/-- All ways to write a day; of two that start at one place an earlier one counts. -/
def forms : List Form := [isoDay, yearMonth, monthDayYear, dayMonthYear, relative]

end JobSearch.Phrase
