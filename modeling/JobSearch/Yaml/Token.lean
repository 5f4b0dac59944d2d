import JobSearch.Yaml.Scalar

/-!
# Tokens of YAML

A text is cut into tokens. Indentation is told by tokens that open and close block collections, and
a key that is only recognized by the colon behind it gets its token in front of the tokens that it
consists of. Each level of flow collections remembers where such a key may have started.
-/

namespace JobSearch.Yaml

/-- A token of a YAML text. -/
inductive Token where
  /-- The directive that names the version. -/
  | version (major minor : Nat)
  /-- The directive that gives tags a handle. -/
  | tagHandle (handle start : Text)
  /-- The mark that starts a document. -/
  | documentStart
  /-- The mark that ends a document. -/
  | documentEnd
  /-- The start of an indented sequence. -/
  | blockSequence
  /-- The start of an indented mapping. -/
  | blockMapping
  /-- The end of an indented collection. -/
  | blockEnd
  /-- An opening bracket. -/
  | openBracket
  /-- A closing bracket. -/
  | closeBracket
  /-- An opening brace. -/
  | openBrace
  /-- A closing brace. -/
  | closeBrace
  /-- A hyphen before an entry. -/
  | entry
  /-- A comma. -/
  | comma
  /-- The start of a key. -/
  | key
  /-- The colon before a value. -/
  | value
  /-- A reference to an anchor. -/
  | reference (name : Text)
  /-- An anchor. -/
  | anchor (name : Text)
  /-- A tag as its handle and its suffix. -/
  | tag (handle suffix : Text)
  /-- A scalar. -/
  | scalar (style : Style) (value : Text)
  /-- The end of the text. -/
  | finish
  deriving DecidableEq, Repr

/-- A character of a name. -/
def isName (c : Char) : Bool := c.isAlphanum || c == '_' || c == '-'

/-- Scans the name after the indicator of an anchor or an alias. -/
def anchorName (p : Place) : Option (Text × Place) :=
  let p := p.skip 1
  let name := p.rest.takeWhile isName
  let q := p.skip name.length
  let ends := match q.rest with
    | [] => true
    | c :: _ => isBlank c || isBreak c || "?:,]\x7d%@`".toList.contains c
  if name.isEmpty || !ends then none else some (name, q)

/-- A character of a tag, apart from escapes. -/
def isTagChar (wide : Bool) (c : Char) : Bool :=
  isName c || ";/?:@&=+$.!~*\x27()".toList.contains c || (wide && ",[]".toList.contains c)

/-- Reads the bytes of one character in escapes. -/
def tagEscape? (t : Text) : Option (Char × Text) :=
  let byte? (t : Text) : Option (Nat × Text) :=
    match t with
    | '%' :: a :: b :: r => do return (16 * (← hexValue? a) + (← hexValue? b), r)
    | _ => none
  let further (n : Nat) (t : Text) : Option (Nat × Text) :=
    match byte? t with
    | some (b, r) => if b / 64 = 2 then some (64 * n + b % 64, r) else none
    | none => none
  do
    let (b, r) ← byte? t
    if b < 0x80 then return (Char.ofNat b, r)
    else if b / 32 = 6 then
      let (n, r) ← further (b % 32) r
      return (← charOf? n, r)
    else if b / 16 = 14 then
      let (n, r) ← further (b % 16) r
      let (n, r) ← further n r
      return (← charOf? n, r)
    else if b / 8 = 30 then
      let (n, r) ← further (b % 8) r
      let (n, r) ← further n r
      let (n, r) ← further n r
      return (← charOf? n, r)
    else none

/-- Scans the characters of a tag. -/
def tagText (wide : Bool) : Nat → Place → Option (Text × Place)
  | 0, _ => none
  | fuel + 1, p =>
    match p.rest with
    | [] => some ([], p)
    | c :: _ =>
      if c == '%' then
        match tagEscape? p.rest with
        | none => none
        | some (d, r) =>
          (tagText wide fuel (p.skip (p.rest.length - r.length))).map fun (t, q) => (d :: t, q)
      else if isTagChar wide c then (tagText wide fuel (p.skip 1)).map fun (t, q) => (c :: t, q)
      else some ([], p)

/-- Scans a handle: an exclamation mark, a name and perhaps another exclamation mark. -/
def handle (p : Place) : Option (Text × Place) :=
  if !startsWith '!' p.rest then none
  else
    let name := (p.rest.drop 1).takeWhile isName
    let q := p.skip (1 + name.length)
    if startsWith '!' q.rest then some ('!' :: name ++ ['!'], q.skip 1) else some ('!' :: name, q)

/-- Scans the handle and the suffix of a tag. -/
def tagParts (p : Place) : Option (Text × Text × Place) :=
  if startsWith '<' (p.rest.drop 1) then
    let p := p.skip 2
    match tagText true (p.rest.length + 1) p with
    | none => none
    | some (suffix, q) =>
      if suffix.isEmpty || !startsWith '>' q.rest then none else some ([], suffix, q.skip 1)
  else
    match handle p with
    | none => none
    | some (h, p) =>
      match tagText false (p.rest.length + 1) p with
      | none => none
      | some (t, q) =>
        if 2 ≤ h.length ∧ h.getLast? = some '!' then
          if t.isEmpty then none else some (h, t, q)
        else
          let suffix := h.drop 1 ++ t
          if suffix.isEmpty then some ([], ['!'], q) else some (['!'], suffix, q)

/-- Scans a tag. -/
def tag (inFlow : Bool) (p : Place) : Option (Token × Place) :=
  match tagParts p with
  | none => none
  | some (h, suffix, q) =>
    if atGap q.rest || (inFlow && startsWith ',' q.rest) then some (.tag h suffix, q) else none

/-- Scans a number of at most nine digits. -/
def versionNumber (p : Place) : Option (Nat × Place) :=
  let digits := p.rest.takeWhile Char.isDigit
  if 9 < digits.length then none
  else (Text.toNat? digits).map fun n => (n, p.skip digits.length)

/-- Scans what follows the name of a directive. -/
def directiveValue (name : Text) (p : Place) : Option (Token × Place) :=
  let p := p.skipWhile isBlank
  if name = "YAML".toList then
    match versionNumber p with
    | none => none
    | some (major, p) =>
      if !startsWith '.' p.rest then none
      else (versionNumber (p.skip 1)).map fun (minor, p) => (.version major minor, p)
  else if name = "TAG".toList then
    match handle p with
    | none => none
    | some (h, p) =>
      if h.length ≠ 1 ∧ h.getLast? ≠ some '!' then none
      else if !((p.rest.head?.map isBlank).getD false) then none
      else
        let p := p.skipWhile isBlank
        match tagText true (p.rest.length + 1) p with
        | none => none
        | some (start, q) =>
          if start.isEmpty || !atGap q.rest then none else some (.tagHandle h start, q)
  else none

/-- Scans a directive at its percent sign, with the rest of its line. -/
def directive (p : Place) : Option (Token × Place) :=
  let p := p.skip 1
  let name := p.rest.takeWhile isName
  let p := p.skip name.length
  if name.isEmpty || !atGap p.rest then none
  else
    match directiveValue name p with
    | none => none
    | some (token, p) =>
      let p := p.skipWhile isBlank
      let p := if startsWith '#' p.rest then p.skipWhile (fun c => !isBreak c) else p
      if atLineEnd p.rest then some (token, p.skipBreak) else none

/-- Where a key may have started that only a colon will tell. -/
structure KeyStart where
  /-- The place. -/
  place : Place
  /-- The number of tokens before the key. -/
  tokens : Nat
  /-- The place can only be a key. -/
  required : Bool
  deriving DecidableEq, Repr

/-- The state between two tokens. -/
structure Lexer where
  /-- The place up to which the text is cut. -/
  place : Place
  /-- The tokens so far. -/
  tokens : List Token
  /-- The indentation of the innermost block collection, -1 outside all. -/
  indent : Int
  /-- The indentations of the collections around it, the innermost first. -/
  outer : List Int
  /-- A key that only a colon will tell may start here. -/
  keyAllowed : Bool
  /-- The possible key of the innermost level. -/
  current : Option KeyStart
  /-- The possible keys of the levels around it, the innermost first; one for each open flow
  collection. -/
  waiting : List (Option KeyStart)
  deriving DecidableEq, Repr

namespace Lexer

/-- The state at the start of a text. -/
def start (t : Text) : Lexer := ⟨Place.start t, [], -1, [], true, none, []⟩

/-- The place lies inside a flow collection. -/
def inFlow (s : Lexer) : Bool := !s.waiting.isEmpty

/-- Adds a token at the end. -/
def emit (s : Lexer) (t : Token) : Lexer := { s with tokens := s.tokens ++ [t] }

/-- Inserts a token in front of all but the first few. -/
def insert (s : Lexer) (count : Nat) (t : Token) : Lexer :=
  { s with tokens := s.tokens.take count ++ t :: s.tokens.drop count }

/-- Passes over some characters. -/
def skip (s : Lexer) (count : Nat) : Lexer := { s with place := s.place.skip count }

/-- Forgets the possible key of the level; a required one cannot be forgotten. -/
def dropKey (s : Lexer) : Option Lexer :=
  match s.current with
  | some k => if k.required then none else some { s with current := none }
  | none => some s

/-- Remembers that a key may start here. -/
def saveKey (s : Lexer) : Option Lexer :=
  if s.keyAllowed then
    let required := !s.inFlow && s.indent == s.place.column
    (dropKey s).map fun s => { s with current := some ⟨s.place, s.tokens.length, required⟩ }
  else some s

/-- A key must end on its line and within 1024 characters. -/
def isStale (p : Place) (k : KeyStart) : Bool :=
  decide (k.place.line < p.line) || decide (k.place.index + 1024 < p.index)

/-- Forgets the possible keys that have become too long; a required one cannot be forgotten. -/
def dropStale (s : Lexer) : Option Lexer :=
  let keep : Option KeyStart → Option (Option KeyStart)
    | some k => if isStale s.place k then if k.required then none else some none else some (some k)
    | none => some none
  match keep s.current, s.waiting.mapM keep with
  | some current, some waiting => some { s with current, waiting }
  | _, _ => none

/-- Opens a block collection if the column lies deeper than the innermost one; its token goes in
front of all but the first `count` tokens. -/
def roll (s : Lexer) (column count : Nat) (t : Token) : Lexer :=
  if s.inFlow then s
  else if s.indent < column then
    { s.insert count t with indent := column, outer := s.indent :: s.outer }
  else s

/-- Closes the given block collections as far as they lie deeper than the column. -/
def unrollFrom (column : Int) : List Int → Lexer → Lexer
  | [], s => s
  | o :: os, s =>
    if column < s.indent then
      unrollFrom column os { s.emit .blockEnd with indent := o, outer := os }
    else s

/-- Closes the block collections that lie deeper than the column. -/
def unroll (s : Lexer) (column : Int) : Lexer :=
  if s.inFlow then s else unrollFrom column s.outer s

/-- Leaves all block collections, as before a mark or a directive. -/
def leave (s : Lexer) : Option Lexer :=
  (dropKey (s.unroll (-1))).map fun s => { s with keyAllowed := false }

/-- Passes over blanks, comments and line breaks. After a line break outside flow collections a key
may start; tabs are passed only where none may. -/
def toToken : Nat → (inFlow keyAllowed : Bool) → Place → Place × Bool
  | 0, _, keyAllowed, p => (p, keyAllowed)
  | fuel + 1, inFlow, keyAllowed, p =>
    let p := if p.index == 0 && startsWith '\ufeff' p.rest then p.skip 1 else p
    let p := p.skipWhile fun c => c == ' ' || ((inFlow || !keyAllowed) && c == '\t')
    let p := if startsWith '#' p.rest then p.skipWhile (fun c => !isBreak c) else p
    if (p.rest.head?.map isBreak).getD false then
      toToken fuel inFlow (keyAllowed || !inFlow) p.skipBreak
    else (p, keyAllowed)

/-- The end of the text. -/
def finish (s : Lexer) : Option Lexer :=
  let p := s.place
  let p := if p.column = 0 then p else { p with line := p.line + 1, column := 0 }
  (leave { s with place := p }).map fun s => s.emit .finish

/-- A mark that starts or ends a document. -/
def mark (s : Lexer) (t : Token) : Option Lexer := (leave s).map fun s => (s.skip 3).emit t

/-- An opening bracket or brace. -/
def openFlow (s : Lexer) (t : Token) : Option Lexer :=
  (saveKey s).map fun s =>
    let s := { s with current := none, waiting := s.current :: s.waiting, keyAllowed := true }
    (s.skip 1).emit t

/-- A closing bracket or brace. -/
def closeFlow (s : Lexer) (t : Token) : Option Lexer :=
  (dropKey s).map fun s =>
    let s := match s.waiting with
      | [] => s
      | k :: ks => { s with current := k, waiting := ks }
    ({ s with keyAllowed := false }.skip 1).emit t

/-- A comma. -/
def comma (s : Lexer) : Option Lexer :=
  (dropKey s).map fun s => ({ s with keyAllowed := true }.skip 1).emit .comma

/-- A hyphen before an entry. -/
def entry (s : Lexer) : Option Lexer :=
  if !s.inFlow && !s.keyAllowed then none
  else
    (dropKey (s.roll s.place.column s.tokens.length .blockSequence)).map fun s =>
      ({ s with keyAllowed := true }.skip 1).emit .entry

/-- A question mark before a key. -/
def key (s : Lexer) : Option Lexer :=
  if !s.inFlow && !s.keyAllowed then none
  else
    (dropKey (s.roll s.place.column s.tokens.length .blockMapping)).map fun s =>
      ({ s with keyAllowed := !s.inFlow }.skip 1).emit .key

/-- A colon before a value. A possible key becomes one. -/
def value (s : Lexer) : Option Lexer :=
  match s.current with
  | some k =>
    let s := (s.insert k.tokens .key).roll k.place.column k.tokens .blockMapping
    some (({ s with current := none, keyAllowed := false }.skip 1).emit .value)
  | none =>
    if !s.inFlow && !s.keyAllowed then none
    else
      let s := s.roll s.place.column s.tokens.length .blockMapping
      some (({ s with keyAllowed := !s.inFlow }.skip 1).emit .value)

/-- An anchor, an alias, a tag or a quoted scalar, given its scan. -/
def simple (s : Lexer) (scan : Place → Option (Token × Place)) : Option Lexer :=
  match saveKey s with
  | none => none
  | some s =>
    (scan s.place).map fun (t, p) => { s with place := p, keyAllowed := false }.emit t

/-- A block scalar. -/
def blockScalar (s : Lexer) (style : Style) : Option Lexer :=
  match dropKey s with
  | none => none
  | some s =>
    (block (style == .folded) s.indent s.place).map fun (v, p) =>
      { s with place := p, keyAllowed := true }.emit (.scalar style v)

/-- A plain scalar. A line break at its end lets a key start. -/
def plainScalar (s : Lexer) : Option Lexer :=
  match saveKey s with
  | none => none
  | some s =>
    (plain s.inFlow (s.indent + 1).toNat s.place).map fun (v, p, broken) =>
      { s with place := p, keyAllowed := broken }.emit (.scalar .plain v)

/-- A plain scalar starts with this character, given the text behind it. -/
def startsPlain (inFlow : Bool) (c : Char) (r : Text) : Bool :=
  !(isBlank c || isBreak c || "-?:,[]\x7b\x7d#&*!|>\x27\"%@`".toList.contains c) ||
    (c == '-' && !((r.head?.map isBlank).getD false)) ||
    (!inFlow && (c == '?' || c == ':') && !atGap r)

/-- Cuts the token at the place, which is not white space. -/
def token (s : Lexer) : Option Lexer :=
  match s.place.rest with
  | [] => finish s
  | c :: r =>
    let flow := s.inFlow
    if s.place.column == 0 && c == '%' then
      match leave s with
      | none => none
      | some s => (directive s.place).map fun (t, p) => { s with place := p }.emit t
    else if s.place.atMark '-' then s.mark .documentStart
    else if s.place.atMark '.' then s.mark .documentEnd
    else if c == '[' then s.openFlow .openBracket
    else if c == '\x7b' then s.openFlow .openBrace
    else if c == ']' then s.closeFlow .closeBracket
    else if c == '\x7d' then s.closeFlow .closeBrace
    else if c == ',' then s.comma
    else if c == '-' && atGap r then s.entry
    else if c == '?' && (flow || atGap r) then s.key
    else if c == ':' && (flow || atGap r) then s.value
    else if c == '*' then s.simple fun p => (anchorName p).map fun (n, q) => (.reference n, q)
    else if c == '&' then s.simple fun p => (anchorName p).map fun (n, q) => (.anchor n, q)
    else if c == '!' then s.simple (tag flow)
    else if c == '|' && !flow then s.blockScalar .literal
    else if c == '>' && !flow then s.blockScalar .folded
    else if c == '\x27' || c == '"' then
      s.simple fun p => (quoted p).map fun (v, q) => (.scalar .quoted v, q)
    else if startsPlain flow c r then s.plainScalar
    else none

/-- Passes over white space and closes what ends there. -/
def advance (s : Lexer) : Option Lexer :=
  let (p, keyAllowed) := toToken (s.place.rest.length + 1) s.inFlow s.keyAllowed s.place
  (dropStale { s with place := p, keyAllowed }).map fun s => s.unroll s.place.column

/-- Cuts tokens until the end of the text. Each takes a character at least, so the length of the
text is fuel enough. -/
def run : Nat → Lexer → Option (List Token)
  | 0, _ => none
  | fuel + 1, s =>
    match advance s with
    | none => none
    | some s =>
      match s.token with
      | none => none
      | some t => if s.place.rest.isEmpty then some t.tokens else run fuel t

end Lexer

/-- The tokens of a text, if it can be cut. -/
def tokens (t : Text) : Option (List Token) :=
  if t.all isAllowed then Lexer.run (t.length + 1) (Lexer.start t) else none

end JobSearch.Yaml
