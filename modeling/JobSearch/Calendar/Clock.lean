import JobSearch.Calendar.Month
import JobSearch.Calendar.Recognizer

/-!
# Resolving dates in free text

A calendar has a recognizer of dates and a day that counts as today. Free text resolves to the
date recognized in it, or to today, so resolution always succeeds.
-/

namespace JobSearch

/-- A recognizer of dates and the day that counts as today. -/
structure Calendar where
  /-- The date named in a text, seen from a reference day. -/
  recognize : Text → Date → Option Date
  /-- The day that counts as today. -/
  today : Date

namespace Calendar

/-- The calendar that recognizes the usual ways to write a date. -/
def pinned (today : Date) : Calendar := ⟨Recognizer.recognize, today⟩

/-- The text that the recognizer is asked about: none if there is nothing but white space. -/
def question? (t : Option Text) : Option Text :=
  match t with
  | none => none
  | some t => if t.isAllBlank then none else some t.trim

/-- The date recognized in a text, or today. -/
def resolve (cal : Calendar) (t : Option Text) : Date :=
  match question? t with
  | none => cal.today
  | some q => (cal.recognize q cal.today).getD cal.today

/-- The first day of the month before the date that a text resolves to. -/
def lastMonth (cal : Calendar) (t : Option Text) : Except QueryError Date :=
  shiftMonth (cal.resolve t) (-1)

end Calendar

end JobSearch
