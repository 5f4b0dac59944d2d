import JobSearch.Json.Value
import JobSearch.Part.Basic

/-!
# Parts as JSON

A part is written as an object of its type and its input. The compact text of a list of parts is
what identifiers are derived from, so it must not change.
-/

namespace JobSearch

/-- A bound, or `null` in its place. -/
def SalaryRange.boundJson : Option UInt64 → Json.Value
  | none => .null
  | some n => .number (.natural n)

/-- A salary range as an array: the lower bound, then the upper bound if there is one. -/
def SalaryRange.json (r : SalaryRange) : Json.Value :=
  match r.max with
  | none => .array [boundJson r.min]
  | some max => .array [boundJson r.min, .number (.natural max)]

namespace Part

/-- The input of a part. -/
def inputJson : Part → Json.Value
  | .text input => .string input
  | .site input => .string input
  | .after input => .string input
  | .before input => .string input
  | .lastMonth none => .null
  | .lastMonth (some input) => .string input
  | .salary range => range.json

/-- A part as an object. -/
def json (p : Part) : Json.Value :=
  .object [("type".toList, .string p.kind.name), ("input".toList, p.inputJson)]

/-- A list of parts as an array. -/
def listJson (ps : List Part) : Json.Value := .array (ps.map json)

end Part

end JobSearch
