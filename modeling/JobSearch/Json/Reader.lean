import JobSearch.Json.Scan
import JobSearch.Json.Value

/-!
# Reading JSON values

Brackets may nest up to a fixed number of levels, and the reader of a value recurses on the levels
that remain. The lists inside brackets are read by one loop each for arrays and objects, which take
the reader of an element as a parameter, so a list of anything is read like an array of values.
-/

namespace JobSearch.Json

/-- The number of levels to which brackets may nest. -/
def maxLevels : Nat := 127

/-- Moves to the next element of an array: `true` at its first character, `false` at the closing
bracket. -/
def nextItem (first : Bool) (s : Text) : Except Fault (Bool × Text) :=
  match skipSpace s with
  | [] => .error (.here .endInArray [])
  | ']' :: r => .ok (false, ']' :: r)
  | c :: r =>
    if first then .ok (true, c :: r)
    else if c = ',' then
      match skipSpace r with
      | [] => .error (.here .endInValue [])
      | ']' :: t => .error (.seen .trailingComma (']' :: t))
      | t => .ok (true, t)
    else .error (.seen .expectedCommaOrBracket (c :: r))

/-- Passes the closing bracket of an array. The rest is the same whether or not it was there. -/
def closeArray (s : Text) : Text × Option Fault :=
  match skipSpace s with
  | [] => ([], some (.here .endInArray []))
  | ']' :: r => (r, none)
  | ',' :: r =>
    match skipSpace r with
    | [] => ([], some (.here .trailingCharacters []))
    | ']' :: t => (']' :: t, some (.seen .trailingComma (']' :: t)))
    | t => (t, some (.seen .trailingCharacters t))
  | t => (t, some (.seen .trailingCharacters t))

/-- Moves to the next member of an object and reads its name; `none` at the closing brace. -/
def nextName (first : Bool) (s : Text) : Except Fault (Option Text × Text) :=
  match skipSpace s with
  | [] => .error (.here .endInObject [])
  | '\x7d' :: r => .ok (none, '\x7d' :: r)
  | c :: r =>
    if first then
      if c = '"' then (string r).map fun (name, t) => (some name, t)
      else .error (.seen .keyNotString (c :: r))
    else if c = ',' then
      match skipSpace r with
      | [] => .error (.here .endInValue [])
      | '"' :: t => (string t).map fun (name, u) => (some name, u)
      | '\x7d' :: t => .error (.seen .trailingComma ('\x7d' :: t))
      | t => .error (.seen .keyNotString t)
    else .error (.seen .expectedCommaOrBrace (c :: r))

/-- Passes the colon after a member name. -/
def colon (s : Text) : Except Fault Text :=
  match skipSpace s with
  | [] => .error (.here .endInObject [])
  | ':' :: r => .ok r
  | t => .error (.seen .expectedColon t)

/-- Passes the closing brace of an object. The rest is the same whether or not it was there. -/
def closeObject (s : Text) : Text × Option Fault :=
  match skipSpace s with
  | [] => ([], some (.here .endInObject []))
  | '\x7d' :: r => (r, none)
  | ',' :: r => (',' :: r, some (.seen .trailingComma (',' :: r)))
  | t => (t, some (.seen .trailingCharacters t))

/-- Ends a bracketed value with what closes it. A fault inside comes before one at the end, and a
fault without a place of its own belongs after the end. -/
def enclose (close : Text → Text × Option Fault) (inside : Except Fault (α × Text)) :
    Except Fault (α × Text) :=
  match inside with
  | .error f => .error (f.settle fun s => (close s).1)
  | .ok (x, s) =>
    match close s with
    | (r, none) => .ok (x, r)
    | (_, some f) => .error f

/-- Reads the elements of an array up to its closing bracket. Each takes a character at least, so
the length of the text is fuel enough. -/
def items (item : Reader α) : Nat → Bool → Text → Except Fault (List α × Text)
  | 0, _, s => .error (.here .endInArray s)
  | fuel + 1, first, s =>
    match nextItem first s with
    | .error f => .error f
    | .ok (false, t) => .ok ([], t)
    | .ok (true, t) =>
      match item t with
      | .error f => .error f
      | .ok (x, u) => (items item fuel false u).map fun (xs, v) => (x :: xs, v)

/-- Reads an array after its opening bracket. -/
def arrayOf (item : Reader α) (s : Text) : Except Fault (List α × Text) :=
  enclose closeArray (items item (s.length + 1) true s)

/-- Reads the members of an object up to its closing brace. -/
def members (item : Reader α) : Nat → Bool → Text → Except Fault (List (Text × α) × Text)
  | 0, _, s => .error (.here .endInObject s)
  | fuel + 1, first, s =>
    match nextName first s with
    | .error f => .error f
    | .ok (none, t) => .ok ([], t)
    | .ok (some name, t) =>
      match colon t with
      | .error f => .error f
      | .ok u =>
        match item u with
        | .error f => .error f
        | .ok (x, v) => (members item fuel false v).map fun (xs, w) => ((name, x) :: xs, w)

/-- Reads an object after its opening brace. -/
def objectOf (item : Reader α) (s : Text) : Except Fault (List (Text × α) × Text) :=
  enclose closeObject (members item (s.length + 1) true s)

/-- Reads a value that is not bracketed. -/
def scalar (s : Text) : Except Fault (Value × Text) :=
  match s with
  | [] => .error (.here .endInValue [])
  | 'n' :: r => (literalTail "ull".toList r).map fun t => (.null, t)
  | 't' :: r => (literalTail "rue".toList r).map fun t => (.bool true, t)
  | 'f' :: r => (literalTail "alse".toList r).map fun t => (.bool false, t)
  | '-' :: r => (number true r).map fun (n, t) => (.number n, t)
  | '"' :: r => (string r).map fun (c, t) => (.string c, t)
  | c :: r =>
    if c.isDigit then (number false (c :: r)).map fun (n, t) => (.number n, t)
    else .error (.seen .expectedValue (c :: r))

/-- Reads a value whose brackets may nest to the given number of levels. -/
def value : (levels : Nat) → Reader Value
  | 0, s =>
    match skipSpace s with
    | '[' :: r => .error (.seen .tooDeep ('[' :: r))
    | '\x7b' :: r => .error (.seen .tooDeep ('\x7b' :: r))
    | t => scalar t
  | levels + 1, s =>
    match skipSpace s with
    | '[' :: r => (arrayOf (value levels) r).map fun (xs, t) => (.array xs, t)
    | '\x7b' :: r => (objectOf (value levels) r).map fun (ms, t) => (.object ms, t)
    | t => scalar t

/-- Passes the content of a string and its closing quote. Escaped codes need not be characters. -/
def skipString : Nat → Text → Except Fault Text
  | 0, s => .error (.here .endInString s)
  | _ + 1, [] => .error (.here .endInString [])
  | fuel + 1, c :: r =>
    if c = '"' then .ok r
    else if c = '\\' then
      match r with
      | [] => .error (.here .endInString [])
      | 'u' :: t =>
        match hexCode t with
        | .error f => .error f
        | .ok (_, u) => skipString fuel u
      | d :: t =>
        if (shortEscape? d).isSome then skipString fuel t
        else .error (.seen .invalidEscape (d :: t))
    else if c.toNat < 32 then .error (.here .controlCharacter (c :: r))
    else skipString fuel r

/-- Passes the exponent of a number after its letter. -/
def skipExponent (s : Text) : Except Fault Text :=
  let r := match s with
    | '+' :: t => t
    | '-' :: t => t
    | t => t
  match r with
  | [] => .error (.here .invalidNumber [])
  | c :: t =>
    if c.isDigit then .ok (t.dropWhile Char.isDigit) else .error (.seen .invalidNumber (c :: t))

/-- Passes a number after its minus sign, if it has one. Its size does not matter. -/
def skipNumber (s : Text) : Except Fault Text :=
  let exponent? (t : Text) : Except Fault Text :=
    match t with
    | 'e' :: u => skipExponent u
    | 'E' :: u => skipExponent u
    | u => .ok u
  let afterWhole (t : Text) : Except Fault Text :=
    match t with
    | '.' :: u =>
      if startsWithDigit u then exponent? (u.dropWhile Char.isDigit)
      else
        match u with
        | [] => .error (.here .invalidNumber [])
        | u => .error (.seen .invalidNumber u)
    | u => exponent? u
  match s with
  | [] => .error (.here .invalidNumber [])
  | '0' :: r => if startsWithDigit r then .error (.seen .invalidNumber r) else afterWhole r
  | c :: r =>
    if c.isDigit then afterWhole (r.dropWhile Char.isDigit)
    else .error (.seen .invalidNumber (c :: r))

/-- Passes a value that is not bracketed. -/
def skipScalar (s : Text) : Except Fault Text :=
  match s with
  | [] => .error (.here .endInValue [])
  | 'n' :: r => literalTail "ull".toList r
  | 't' :: r => literalTail "rue".toList r
  | 'f' :: r => literalTail "alse".toList r
  | '-' :: r => skipNumber r
  | '"' :: r => skipString (r.length + 1) r
  | c :: r =>
    if c.isDigit then skipNumber (c :: r) else .error (.seen .expectedValue (c :: r))

/-- Passes a member name and its colon. -/
def skipName (s : Text) : Except Fault Text :=
  match skipSpace s with
  | [] => .error (.here .endInObject [])
  | '"' :: r =>
    match skipString (r.length + 1) r with
    | .error f => .error f
    | .ok t => colon t
  | t => .error (.seen .keyNotString t)

/-- Passes a value of any depth, given the brackets that are open around the place (`true` for a
brace). Each step takes a character at least, so the length of the text is fuel enough. -/
def skipFrom : Nat → (afterValue : Bool) → List Bool → Text → Except Fault Text
  | 0, _, _, s => .error (.here .endInValue s)
  | fuel + 1, false, open', s =>
    match skipSpace s with
    | '[' :: r =>
      match skipSpace r with
      | [] => .error (.here .endInArray [])
      | ']' :: t => skipFrom fuel true open' t
      | t => skipFrom fuel false (false :: open') t
    | '\x7b' :: r =>
      match skipSpace r with
      | [] => .error (.here .endInObject [])
      | '\x7d' :: t => skipFrom fuel true open' t
      | t =>
        match skipName t with
        | .error f => .error f
        | .ok u => skipFrom fuel false (true :: open') u
    | t =>
      match skipScalar t with
      | .error f => .error f
      | .ok u => skipFrom fuel true open' u
  | _ + 1, true, [], s => .ok s
  | fuel + 1, true, brace :: open', s =>
    match skipSpace s with
    | [] => .error (.here (if brace then .endInObject else .endInArray) [])
    | ',' :: r =>
      if brace then
        match skipName r with
        | .error f => .error f
        | .ok t => skipFrom fuel false (true :: open') t
      else skipFrom fuel false (false :: open') r
    | c :: r =>
      if c = (if brace then '\x7d' else ']') then skipFrom fuel true open' r
      else .error
        (.seen (if brace then .expectedCommaOrBrace else .expectedCommaOrBracket) (c :: r))

/-- Passes a value that nothing asks for, of any depth. -/
def skipValue (s : Text) : Except Fault Text := skipFrom (2 * s.length + 2) false [] s

/-- Reads a whole text; only white space may follow the value. -/
def readWhole (reader : Reader α) (text : Text) : Except Error α :=
  match reader text with
  | .error f => .error (f.inText text)
  | .ok (x, rest) =>
    match skipSpace rest with
    | [] => .ok x
    | t => .error ((Fault.seen .trailingCharacters t).inText text)

end JobSearch.Json
