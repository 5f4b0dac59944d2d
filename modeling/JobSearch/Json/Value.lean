import JobSearch.Json.Error

/-!
# JSON values and their text

A value is written in two layouts: compact, without any white space, and indented, with one
element or member a line.
-/

namespace JobSearch.Json

/-- A JSON value. Members keep their order and may repeat a name. -/
inductive Value where
  /-- The literal `null`. -/
  | null
  /-- A truth value. -/
  | bool (b : Bool)
  /-- A number. -/
  | number (n : Number)
  /-- A string. -/
  | string (t : Text)
  /-- An array. -/
  | array (items : List Value)
  /-- An object. -/
  | object (members : List (Text × Value))
  deriving Repr

/-- The kind of a value, in words with an article. -/
def Value.kindName : Value → Text
  | .null => "null".toList
  | .bool _ => "a boolean".toList
  | .number _ => "a number".toList
  | .string _ => "a string".toList
  | .array _ => "an array".toList
  | .object _ => "an object".toList

/-- One character as it is written inside a string. -/
def escapeChar (c : Char) : Text :=
  match c with
  | '"' => ['\\', '"']
  | '\\' => ['\\', '\\']
  | '\x08' => ['\\', 'b']
  | '\t' => ['\\', 't']
  | '\n' => ['\\', 'n']
  | '\x0c' => ['\\', 'f']
  | '\r' => ['\\', 'r']
  | c =>
    if c.toNat < 32 then
      ['\\', 'u', '0', '0', Nat.digitChar (c.toNat / 16), Nat.digitChar (c.toNat % 16)]
    else [c]

/-- A string as it is written, with its quotes. -/
def quote (t : Text) : Text := '"' :: t.flatMap escapeChar ++ ['"']

/-- The texts with commas between neighbours. -/
def commaJoin (ts : List Text) : Text := List.intercalate [','] ts

mutual

/-- The text of a value without white space. -/
def Value.compact : Value → Text
  | .null => "null".toList
  | .bool true => "true".toList
  | .bool false => "false".toList
  | .number n => n.toText
  | .string t => quote t
  | .array items => '[' :: commaJoin (compactItems items) ++ [']']
  | .object members => '\x7b' :: commaJoin (compactMembers members) ++ ['\x7d']

/-- The texts of the elements of an array. -/
def compactItems : List Value → List Text
  | [] => []
  | v :: vs => v.compact :: compactItems vs

/-- The texts of the members of an object. -/
def compactMembers : List (Text × Value) → List Text
  | [] => []
  | (name, v) :: ms => (quote name ++ ':' :: v.compact) :: compactMembers ms

end

/-- A line break and two spaces for every level. -/
def lineBreak (level : Nat) : Text := '\n' :: List.replicate (2 * level) ' '

/-- A bracketed list with one entry a line, or with nothing between the brackets. -/
def bracketed (left right : Char) (level : Nat) (entries : List Text) : Text :=
  match entries with
  | [] => [left, right]
  | _ =>
    left :: commaJoin (entries.map (lineBreak (level + 1) ++ ·)) ++ lineBreak level ++ [right]

mutual

/-- The text of a value with one element or member a line, two spaces deeper at every level. -/
def Value.indented (level : Nat) : Value → Text
  | .null => "null".toList
  | .bool true => "true".toList
  | .bool false => "false".toList
  | .number n => n.toText
  | .string t => quote t
  | .array items => bracketed '[' ']' level (indentedItems (level + 1) items)
  | .object members => bracketed '\x7b' '\x7d' level (indentedMembers (level + 1) members)

/-- The texts of the elements of an array. -/
def indentedItems (level : Nat) : List Value → List Text
  | [] => []
  | v :: vs => v.indented level :: indentedItems level vs

/-- The texts of the members of an object. -/
def indentedMembers (level : Nat) : List (Text × Value) → List Text
  | [] => []
  | (name, v) :: ms => (quote name ++ ": ".toList ++ v.indented level) :: indentedMembers level ms

end

/-- The indented text of a value that stands alone. -/
def Value.pretty (v : Value) : Text := v.indented 0

end JobSearch.Json
