import JobSearch.Query

/-!
# The shape of a query

A flat summary of a query, from which a search form can be filled in again. Date bounds are not
part of it.
-/

namespace JobSearch

/-- The texts, salary bounds and sites of a query. -/
structure Shape where
  /-- The free texts with one space between neighbours. -/
  terms : Text
  /-- The bounds of all salary ranges. -/
  salary : List UInt64
  /-- The sites. -/
  sites : List Text
  deriving DecidableEq, Repr

namespace Shape

/-- The free texts of a list of parts. -/
def termsOf (ps : List Part) : List Text :=
  ps.filterMap fun
    | .text t => if t.isEmpty then none else some t
    | _ => none

/-- The sites of a list of parts. -/
def sitesOf (ps : List Part) : List Text :=
  ps.filterMap fun
    | .site t => if t.isEmpty then none else some t
    | _ => none

/-- The salary bounds of a list of parts; a range without a lower bound is refused. -/
def salaryOf : List Part → Except QueryError (List UInt64)
  | [] => .ok []
  | .salary range :: ps =>
    match range.min with
    | none => .error (.invalidInput .salary .openBelow)
    | some min => (salaryOf ps).map fun rest => min :: (range.max.toList ++ rest)
  | _ :: ps => salaryOf ps

/-- The shape of a list of parts. -/
def ofParts (ps : List Part) : Except QueryError Shape :=
  (salaryOf ps).map fun salary => ⟨Text.unwords (termsOf ps), salary, sitesOf ps⟩

end Shape

/-- The shape of a query. -/
def Query.shape (query : Text) : Except QueryError Shape :=
  match Query.parse query with
  | .error e => .error e
  | .ok ps => Shape.ofParts ps

end JobSearch
