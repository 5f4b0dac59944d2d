import JobSearch.Calendar.Phrase

/-!
# The first day named in a text

Each way of writing a day is searched for from left to right, passing over every match that names
no day, and the match that starts first wins. Matches of one search never overlap: after a match
that names no day the search goes on behind it.
-/

namespace JobSearch.Recognizer

open Phrase

/-- The first match of a form that names a day, with the place where it starts. A search goes on
one character later where nothing matches, and `skip` characters later after a match. -/
def search (form : Form) (reference : Date) :
    (skip place : Nat) → (before : Option Char) → Text → Option (Nat × Date)
  | _, _, _, [] => none
  | skip + 1, place, _, c :: r => search form reference skip (place + 1) (some c) r
  | 0, place, before, c :: r =>
    match (form.pattern.run ⟨before, c :: r⟩).head? with
    | none => search form reference 0 (place + 1) (some c) r
    | some (pieces, stop) =>
      match form.day? reference pieces with
      | some d => some (place, d)
      | none =>
        search form reference (r.length - stop.after.length) (place + 1) (some c) r

/-- The first match of a form in a whole text. -/
def first? (form : Form) (reference : Date) (t : Text) : Option (Nat × Date) :=
  search form reference 0 0 none t

/-- The pair with the least first component; the earlier of two equals. -/
def leastFirst : List (Nat × α) → Option (Nat × α)
  | [] => none
  | x :: xs =>
    match leastFirst xs with
    | none => some x
    | some y => if x.1 ≤ y.1 then some x else some y

/-- The day that a text names, seen from a reference day. -/
def recognize (t : Text) (reference : Date) : Option Date :=
  (leastFirst (forms.filterMap fun form => first? form reference t)).map (·.2)

end JobSearch.Recognizer
