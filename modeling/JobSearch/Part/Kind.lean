import JobSearch.Text.Basic

/-!
# Kinds of parts

Every part of a query has one of six kinds, and every kind has one name wherever parts are written.
-/

namespace JobSearch

/-- The kind of a part. -/
inductive PartKind where
  /-- Free text. -/
  | text
  /-- A site to search. -/
  | site
  /-- Everything since the month before a date. -/
  | lastMonth
  /-- Everything after a date. -/
  | after
  /-- Everything before a date. -/
  | before
  /-- A salary range. -/
  | salary
  deriving DecidableEq, Repr

namespace PartKind

/-- The name of a kind. -/
def name : PartKind → Text
  | .text => "text".toList
  | .site => "site".toList
  | .lastMonth => "last-month".toList
  | .after => "after".toList
  | .before => "before".toList
  | .salary => "salary".toList

/-- All kinds. -/
def all : List PartKind := [.text, .site, .lastMonth, .after, .before, .salary]

/-- The kind with a name. -/
def ofName? (t : Text) : Option PartKind := all.find? fun k => k.name == t

/-- Every kind is found by its name. -/
@[simp] theorem ofName?_name (k : PartKind) : ofName? k.name = some k := by
  cases k <;> decide

end PartKind

end JobSearch
