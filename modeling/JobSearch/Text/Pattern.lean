import JobSearch.Text.Basic
import JobSearch.Text.CharClass

/-!
# Patterns with preferences

A pattern lists all the ways in which it matches at a place of a text, the preferred one first. A
longer repetition is preferred to a shorter one and an earlier alternative to a later one, and a
sequence prefers what its first part prefers. The first match of the list is thus the one that a
search with backtracking finds.
-/

namespace JobSearch

/-- A place in a text: the character before it, if there is one, and the text after it. -/
structure Cursor where
  /-- The character before the place. -/
  before : Option Char
  /-- The text after the place. -/
  after : Text
  deriving DecidableEq, Repr

/-- A pattern: what it reads and where it ends, for every way it matches, preferred first. -/
def Pattern (α : Type) : Type := Cursor → List (α × Cursor)

namespace Pattern

/-- The ways in which the pattern matches at a place. -/
def run (p : Pattern α) (here : Cursor) : List (α × Cursor) := p here

/-- Matches without reading. -/
def done (x : α) : Pattern α := fun here => [(x, here)]

/-- One pattern, then another that may depend on what the first read. -/
def andThen (p : Pattern α) (q : α → Pattern β) : Pattern β :=
  fun here => (p here).flatMap fun (x, there) => q x there

instance : Monad Pattern where
  pure := done
  bind := andThen

/-- Either pattern, the first preferred. -/
def orElse (p q : Pattern α) : Pattern α := fun here => p here ++ q here

/-- The pattern if it matches, or nothing read. -/
def optional (p : Pattern α) : Pattern (Option α) :=
  orElse (p.andThen fun x => done (some x)) (done none)

/-- One character of a class. -/
def char (isIn : Char → Bool) : Pattern Char := fun here =>
  match here.after with
  | [] => []
  | c :: r => if isIn c then [(c, ⟨some c, r⟩)] else []

/-- Up to `most` characters of a class, as many as possible preferred. -/
def upTo (isIn : Char → Bool) : (most : Nat) → Pattern Text
  | 0 => done []
  | most + 1 =>
    orElse ((char isIn).andThen fun c => (upTo isIn most).andThen fun cs => done (c :: cs))
      (done [])

/-- Exactly `count` characters of a class. -/
def exactly (isIn : Char → Bool) : (count : Nat) → Pattern Text
  | 0 => done []
  | count + 1 =>
    (char isIn).andThen fun c => (exactly isIn count).andThen fun cs => done (c :: cs)

/-- At least one character of a class and at most `most`, as many as possible preferred. -/
def oneUpTo (isIn : Char → Bool) (most : Nat) : Pattern Text :=
  (char isIn).andThen fun c => (upTo isIn (most - 1)).andThen fun cs => done (c :: cs)

/-- The places after one or more characters of a class, the farthest first. -/
def placesAfter (isIn : Char → Bool) : Text → List Cursor
  | [] => []
  | c :: r => if isIn c then placesAfter isIn r ++ [⟨some c, r⟩] else []

/-- One or more characters of a class, as many as possible preferred. -/
def many (isIn : Char → Bool) : Pattern Unit :=
  fun here => (placesAfter isIn here.after).map fun there => ((), there)

/-- The place is the start or the end of a word. -/
def boundary : Pattern Unit := fun here =>
  let wordBefore := (here.before.map CharClass.isWord).getD false
  let wordAfter := (here.after.head?.map CharClass.isWord).getD false
  if wordBefore != wordAfter then [((), here)] else []

/-- A character stands for a small letter in either case; the long s stands for an s as well. -/
def isLetter (letter c : Char) : Bool :=
  c.toLower == letter || (letter == 's' && c == 'ſ')

/-- The letters of a word in either case. -/
def letters : Text → Pattern Text
  | [] => done []
  | l :: ls => (char (isLetter l)).andThen fun c => (letters ls).andThen fun cs => done (c :: cs)

/-- One of several patterns, an earlier one preferred. -/
def oneOf (ps : List (Pattern α)) : Pattern α := fun here => ps.flatMap fun p => p here

end Pattern

end JobSearch
