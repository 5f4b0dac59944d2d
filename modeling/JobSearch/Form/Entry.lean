import JobSearch.Json.Reader
import JobSearch.Part.Basic

/-!
# Entries of a search form

A search form submits its parts as JSON objects of a type and an input. An entry is what such an
object holds, before its type and input are looked at; lowering turns it into a part or says what
is wrong with it, and never turns a value into one of another kind.
-/

namespace JobSearch.Form

/-- A part as a form submits it. A missing input and `null` are not told apart. -/
structure Entry where
  /-- The type. -/
  type : Text
  /-- The input. -/
  input : Option Json.Value
  deriving Repr

/-- The input of a part that needs a non-empty string. -/
def requiredString (part : PartKind) : Option Json.Value → Except QueryError Text
  | some (.string t) =>
    if t.isEmpty then .error (.invalidInput part .missing) else .ok t
  | none => .error (.invalidInput part .missing)
  | some .null => .error (.invalidInput part .missing)
  | some v => .error (.invalidInput part (.notString v.kindName))

/-- A number is zero, of either sign and however it is written. -/
def isZero : Json.Number → Bool
  | .natural n => n == 0
  | .negative n => n == 0
  | .float x => x.isZero

/-- The input of a part for which no input, `false`, zero and the empty string mean the present. -/
def optionalString (part : PartKind) : Option Json.Value → Except QueryError (Option Text)
  | none => .ok none
  | some .null => .ok none
  | some (.bool false) => .ok none
  | some (.string t) => .ok (if t.isEmpty then none else some t)
  | some (.number n) =>
    if isZero n then .ok none
    else .error (.invalidInput part (.notString (Json.Value.number n).kindName))
  | some v => .error (.invalidInput part (.notString v.kindName))

/-- A salary bound: `null` for none, or a natural number of 64 bits. -/
def bound : Json.Value → Except QueryError (Option UInt64)
  | .null => .ok none
  | .number (.natural n) => .ok (some n)
  | .number n => .error (.invalidInput .salary (.notWhole n))
  | v => .error (.invalidInput .salary (.notNumber v.kindName))

/-- The input of a salary part: one bound or two. -/
def salaryRange : Option Json.Value → Except QueryError SalaryRange
  | some (.array [low]) => (bound low).map fun min => ⟨min, none⟩
  | some (.array [low, high]) =>
    match bound low with
    | .error e => .error e
    | .ok min => (bound high).map fun max => ⟨min, max⟩
  | some (.array _) => .error (.invalidInput .salary .notOneOrTwo)
  | none => .error (.invalidInput .salary .missing)
  | some .null => .error (.invalidInput .salary .missing)
  | some v => .error (.invalidInput .salary (.notArray v.kindName))

/-- The part that an entry describes. -/
def Entry.lower (e : Entry) : Except QueryError Part :=
  match PartKind.ofName? e.type with
  | some .text => (requiredString .text e.input).map .text
  | some .site => (requiredString .site e.input).map .site
  | some .after => (requiredString .after e.input).map .after
  | some .before => (requiredString .before e.input).map .before
  | some .lastMonth => (optionalString .lastMonth e.input).map .lastMonth
  | some .salary => (salaryRange e.input).map .salary
  | none => .error (.unknownPartType e.type)

end JobSearch.Form
