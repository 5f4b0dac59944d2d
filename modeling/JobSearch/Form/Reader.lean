import JobSearch.Form.Entry

/-!
# Reading forms

A form is a JSON array of entries. An entry is an object of which two members matter, or an array
of the two inputs in their order. There are two ways to read a form: all entries first, lowered
afterwards in order, or each entry lowered as soon as it is read. The second reports a part that
cannot be lowered as a fault of the text.
-/

namespace JobSearch.Form

open Json

/-- What a reader of entries wants, in words. -/
def wantedEntry : Text := "struct RawPart".toList

/-- What a reader of forms wants, in words. -/
def wantedForm : Text := "a sequence".toList

/-- What a reader of types wants, in words. -/
def wantedType : Text := "a string".toList

/-- The fault of a value of another kind than the wanted one. A scalar is read to its end first; a
bracket is left where it is. -/
def wrongKind (wanted s : Text) : Fault :=
  match s with
  | '[' :: _ => .here (.wrongKind .array wanted) s
  | '\x7b' :: _ => .here (.wrongKind .object wanted) s
  | _ =>
    match scalar s with
    | .error f => f
    | .ok (.null, r) => .here (.wrongKind .null wanted) r
    | .ok (.bool b, r) => .here (.wrongKind (.bool b) wanted) r
    | .ok (.number n, r) => .here (.wrongKind (.number n) wanted) r
    | .ok (.string t, r) => .here (.wrongKind (.string t) wanted) r
    | .ok (.array _, r) => .here (.wrongKind .array wanted) r
    | .ok (.object _, r) => .here (.wrongKind .object wanted) r

/-- Reads the type of an entry. -/
def readType : Reader Text := fun s =>
  match skipSpace s with
  | [] => .error (.here .endInValue [])
  | '"' :: r => string r
  | t => .error (wrongKind wantedType t)

/-- The levels to which the brackets of an input may nest, inside a form and an entry. -/
def inputLevels : Nat := maxLevels - 2

/-- Reads the input of an entry; `null` is no input. -/
def readInput : Reader (Option Value) := fun s =>
  match skipSpace s with
  | 'n' :: r => (literalTail "ull".toList r).map fun t => (none, t)
  | t => (value inputLevels t).map fun (v, r) => (some v, r)

/-- The members of an entry that were met so far. -/
structure Gathered where
  /-- The type, if it was met. -/
  type : Option Text
  /-- The input, if it was met. -/
  input : Option (Option Value)

/-- Reads the members of an entry. Other members are passed over; each of the two may occur once,
and the type must. Each step takes a character at least, so the length is fuel enough. -/
def entryMembers : Nat → Bool → Gathered → Text → Except Fault (Entry × Text)
  | 0, _, _, s => .error (.here .endInObject s)
  | fuel + 1, first, sofar, s =>
    match nextName first s with
    | .error f => .error f
    | .ok (none, t) =>
      match sofar.type with
      | none => .error (.pending (.missingMember "type".toList) t)
      | some type => .ok (⟨type, sofar.input.getD none⟩, t)
    | .ok (some name, t) =>
      if name = "type".toList then
        if sofar.type.isSome then .error (.pending (.duplicateMember name) t)
        else
          match colon t with
          | .error f => .error f
          | .ok u =>
            match readType u with
            | .error f => .error f
            | .ok (type, v) => entryMembers fuel false { sofar with type := some type } v
      else if name = "input".toList then
        if sofar.input.isSome then .error (.pending (.duplicateMember name) t)
        else
          match colon t with
          | .error f => .error f
          | .ok u =>
            match readInput u with
            | .error f => .error f
            | .ok (input, v) => entryMembers fuel false { sofar with input := some input } v
      else
        match colon t with
        | .error f => .error f
        | .ok u =>
          match skipValue u with
          | .error f => .error f
          | .ok v => entryMembers fuel false sofar v

/-- Reads an entry that is written as an array of its type and its input. -/
def entryElements (s : Text) : Except Fault (Entry × Text) :=
  match nextItem true s with
  | .error f => .error f
  | .ok (false, t) =>
    .error (.pending (.tooShort 0 (wantedEntry ++ " with 2 elements".toList)) t)
  | .ok (true, t) =>
    match readType t with
    | .error f => .error f
    | .ok (type, u) =>
      match nextItem false u with
      | .error f => .error f
      | .ok (false, v) => .ok (⟨type, none⟩, v)
      | .ok (true, v) => (readInput v).map fun (input, w) => (⟨type, input⟩, w)

/-- Reads an entry. -/
def readEntry : Reader Entry := fun s =>
  match skipSpace s with
  | [] => .error (.here .endInValue [])
  | '[' :: r => enclose closeArray (entryElements r)
  | '\x7b' :: r => enclose closeObject (entryMembers (r.length + 1) true ⟨none, none⟩ r)
  | t => .error (wrongKind wantedEntry t)

/-- Reads an entry and lowers it at once. -/
def readPart : Reader Part := fun s =>
  match readEntry s with
  | .error f => .error f
  | .ok (entry, r) =>
    match entry.lower with
    | .ok part => .ok (part, r)
    | .error e => .error (.refused e.message r)

/-- Reads an array with the given reader of elements. -/
def readList (item : Reader α) : Reader (List α) := fun s =>
  match skipSpace s with
  | [] => .error (.here .endInValue [])
  | '[' :: r => arrayOf item r
  | t => .error (wrongKind wantedForm t)

/-- The parts of a form; all entries are read before the first is lowered. -/
def parts (text : Text) : Except QueryError (List Part) :=
  match readWhole (readList readEntry) text with
  | .error e => .error (.json e)
  | .ok entries => entries.mapM Entry.lower

/-- The parts of a form; each entry is lowered as it is read. -/
def partsAtOnce (text : Text) : Except QueryError (List Part) :=
  match readWhole (readList readPart) text with
  | .error e => .error (.json e)
  | .ok ps => .ok ps

end JobSearch.Form
