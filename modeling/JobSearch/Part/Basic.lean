import JobSearch.Calendar.Clock

/-!
# Parts of a query

A query is a list of parts. A part is written as one token, and a part as such may hold any text:
what a token cannot carry is refused when the part is written.
-/

namespace JobSearch

/-- The highest salary bound that is written; larger numbers match unrelated figures. -/
def salaryCeiling : Nat := 900000

/-- Salary bounds of 64 bits, either of which may be absent. -/
structure SalaryRange where
  /-- The lower bound. -/
  min : Option UInt64
  /-- The upper bound. -/
  max : Option UInt64
  deriving DecidableEq, Repr

/-- One unit of a query. -/
inductive Part where
  /-- Free text. -/
  | text (input : Text)
  /-- A site to search. -/
  | site (input : Text)
  /-- Everything since the month before the date named in a text, or before today. -/
  | lastMonth (input : Option Text)
  /-- Everything after a date. -/
  | after (input : Text)
  /-- Everything before a date. -/
  | before (input : Text)
  /-- A salary range. -/
  | salary (range : SalaryRange)
  deriving DecidableEq, Repr

namespace Part

/-- The kind of a part. -/
def kind : Part → PartKind
  | .text _ => .text
  | .site _ => .site
  | .lastMonth _ => .lastMonth
  | .after _ => .after
  | .before _ => .before
  | .salary _ => .salary

/-- The group of a part in canonical order: text, then salary, then all operators together. -/
def group : Part → Nat
  | .text _ => 0
  | .salary _ => 1
  | _ => 2

/-- The text by which the parts of a group are ordered. -/
def orderText : Part → Text
  | .site v => v
  | .after v => v
  | .before v => v
  | .lastMonth v => v.getD []
  | .text _ => []
  | .salary _ => []

/-- Canonical order: by group, then by value in the order of code points. Parts with equal keys
are not told apart. -/
def compare (p q : Part) : Ordering :=
  (Ord.compare p.group q.group).then (Ord.compare p.orderText q.orderText)

/-- The first part does not come after the second in canonical order. -/
def notAfter (p q : Part) : Bool := p.compare q != .gt

/-- The parts in canonical order, parts with equal keys in the order in which they came. -/
def canonical (ps : List Part) : List Part := ps.mergeSort notAfter

/-- Putting parts in order neither loses nor adds one. -/
theorem canonical_perm (ps : List Part) : (canonical ps).Perm ps := List.mergeSort_perm ps notAfter

end Part

end JobSearch
