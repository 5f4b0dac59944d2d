import JobSearch.Part.Json
import JobSearch.Query.Shape
import JobSearch.Query.Sweep

/-!
# Results as JSON

Results with a structure are shown as indented JSON, with the members in a fixed order.
-/

namespace JobSearch

/-- A variation as an object. -/
def Variation.json (v : Variation) : Json.Value :=
  .object [("label".toList, .string v.label), ("query".toList, .string v.query)]

/-- A shape as an object. -/
def Shape.json (s : Shape) : Json.Value :=
  .object [("terms".toList, .string s.terms),
    ("salary".toList, .array (s.salary.map fun n => .number (.natural n))),
    ("sites".toList, .array (s.sites.map .string))]

end JobSearch
