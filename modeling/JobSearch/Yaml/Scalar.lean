import JobSearch.Yaml.Place

/-!
# Scanning YAML scalars

A scalar is plain, quoted or a block. Inside plain and quoted scalars the white space around line
breaks is folded: one break becomes a space and further ones are kept. Inside a block the lines are
kept as they are, or folded where neither neighbour is indented. A scalar that breaks the grammar
has no value.
-/

namespace JobSearch.Yaml

/-- How a scalar is written. -/
inductive Style where
  /-- Without quotes. -/
  | plain
  /-- Between apostrophes or quotation marks. -/
  | quoted
  /-- As an indented block whose lines are kept. -/
  | literal
  /-- As an indented block whose lines are folded. -/
  | folded
  deriving DecidableEq, Repr

/-- The white space between two pieces of a flow scalar. -/
structure Gap where
  /-- The blanks before the first line break. -/
  blanks : Text
  /-- The first line break; `none` if there is no break at all. -/
  first : Option Text
  /-- The further line breaks. -/
  further : Text
  deriving DecidableEq, Repr

namespace Gap

/-- No white space. -/
def empty : Gap := ⟨[], none, []⟩

/-- What the white space stands for in the value. -/
def value (g : Gap) : Text :=
  match g.first with
  | none => g.blanks
  | some ['\n'] => if g.further.isEmpty then [' '] else g.further
  | some b => b ++ g.further

/-- The white space contains a line break. -/
def isBroken (g : Gap) : Bool := g.first.isSome

end Gap

/-- Takes blanks and line breaks. Below the given indentation a tab after a break is refused. Each
step takes a character at least, so the length of the text is fuel enough. -/
def gap (tabLimit : Option Nat) : Nat → Gap → Place → Option (Gap × Place)
  | 0, _, _ => none
  | fuel + 1, g, p =>
    match p.rest with
    | [] => some (g, p)
    | c :: _ =>
      if isBlank c then
        if g.isBroken && c == '\t' && (tabLimit.map fun n => decide (p.column < n)).getD false then
          none
        else
          let g := if g.isBroken then g else { g with blanks := g.blanks ++ [c] }
          gap tabLimit fuel g (p.skip 1)
      else if isBreak c then
        let g := if g.isBroken then { g with further := g.further ++ p.breakText }
          else ⟨[], some p.breakText, []⟩
        gap tabLimit fuel g p.skipBreak
      else some (g, p)

/-- A character that separates the parts of a flow collection. -/
def isFlowMark (c : Char) : Bool :=
  c == ',' || c == '[' || c == ']' || c == '\x7b' || c == '\x7d'

/-- The piece of a plain scalar up to white space or a mark that ends it. Inside a flow collection a
colon right before a mark of the collection is refused. -/
def plainPiece (inFlow : Bool) : Text → Option Text
  | [] => some []
  | c :: r =>
    if isBlank c || isBreak c then some []
    else if inFlow && c == ':' && ((r.head?.map fun d => isFlowMark d || d == '?').getD false) then
      none
    else if (c == ':' && atGap r) || (inFlow && isFlowMark c) then some []
    else (plainPiece inFlow r).map (c :: ·)

/-- Scans a plain scalar from one of its pieces on: its value after what came before, the place
behind it and whether a line break was passed at its end. -/
def plainFrom (inFlow : Bool) (indent : Nat) : Nat → (before : Text) → Gap → Place →
    Option (Text × Place × Bool)
  | 0, _, _, _ => none
  | fuel + 1, before, g, p =>
    if p.atDocumentMark || startsWith '#' p.rest then some (before, p, g.isBroken)
    else
      match plainPiece inFlow p.rest with
      | none => none
      | some piece =>
        let value := if piece.isEmpty then before else before ++ g.value ++ piece
        let g := if piece.isEmpty then g else Gap.empty
        let p := p.skip piece.length
        match p.rest with
        | [] => some (value, p, g.isBroken)
        | c :: _ =>
          if isBlank c || isBreak c then
            match gap (some indent) (p.rest.length + 1) g p with
            | none => none
            | some (g, p) =>
              if !inFlow && p.column < indent then some (value, p, g.isBroken)
              else plainFrom inFlow indent fuel value g p
          else some (value, p, g.isBroken)

/-- Scans a plain scalar. -/
def plain (inFlow : Bool) (indent : Nat) (p : Place) : Option (Text × Place × Bool) :=
  plainFrom inFlow indent (p.rest.length + 1) [] Gap.empty p

/-- The value of a hexadecimal digit. -/
def hexValue? (c : Char) : Option Nat :=
  if c.isDigit then some (c.toNat - '0'.toNat)
  else if 'a' ≤ c ∧ c ≤ 'f' then some (c.toNat - 'a'.toNat + 10)
  else if 'A' ≤ c ∧ c ≤ 'F' then some (c.toNat - 'A'.toNat + 10)
  else none

/-- The number of hexadecimal digits after the letter of an escape. -/
def codeLength? (c : Char) : Option Nat :=
  if c = 'x' then some 2 else if c = 'u' then some 4 else if c = 'U' then some 8 else none

/-- The character that an escape of one letter stands for. -/
def escapeLetter? (c : Char) : Option Char :=
  match c with
  | '0' => some '\x00'
  | 'a' => some '\x07'
  | 'b' => some '\x08'
  | 't' => some '\t'
  | '\t' => some '\t'
  | 'n' => some '\n'
  | 'v' => some '\x0b'
  | 'f' => some '\x0c'
  | 'r' => some '\r'
  | 'e' => some '\x1b'
  | ' ' => some ' '
  | '"' => some '"'
  | '/' => some '/'
  | '\\' => some '\\'
  | 'N' => some '\u0085'
  | '_' => some '\u00a0'
  | 'L' => some '\u2028'
  | 'P' => some '\u2029'
  | _ => none

/-- The character with a code; surrogates and larger numbers have none. -/
def charOf? (n : Nat) : Option Char := if n.isValidChar then some (Char.ofNat n) else none

/-- Reads what follows a backslash, as the character it stands for and the number of characters
read. -/
def escape? (t : Text) : Option (Char × Nat) :=
  match t with
  | [] => none
  | c :: r =>
    match codeLength? c with
    | some n =>
      if r.length < n then none
      else
        match (r.take n).mapM hexValue? with
        | none => none
        | some ds => (charOf? (ds.foldl (fun m d => 16 * m + d) 0)).map fun d => (d, n + 1)
    | none => (escapeLetter? c).map fun d => (d, 1)

/-- Where a piece of a quoted scalar ends. -/
inductive PieceEnd where
  /-- At white space, at the closing quote or at the end of the text. -/
  | stop
  /-- At a backslash before a line break, which then counts for nothing. -/
  | joined
  deriving DecidableEq, Repr

/-- The piece of a quoted scalar up to white space or its closing quote. -/
def quotedPiece (quote : Char) : Nat → Place → Option (Text × PieceEnd × Place)
  | 0, _ => none
  | fuel + 1, p =>
    match p.rest with
    | [] => some ([], .stop, p)
    | c :: r =>
      if isBlank c || isBreak c then some ([], .stop, p)
      else if c == quote then
        if quote == '\x27' && startsWith quote r then
          (quotedPiece quote fuel (p.skip 2)).map fun (t, e, q) => (c :: t, e, q)
        else some ([], .stop, p)
      else if quote == '"' && c == '\\' then
        if (r.head?.map isBreak).getD false then some ([], .joined, (p.skip 1).skipBreak)
        else
          match escape? r with
          | none => none
          | some (d, n) =>
            (quotedPiece quote fuel (p.skip (n + 1))).map fun (t, e, q) => (d :: t, e, q)
      else (quotedPiece quote fuel (p.skip 1)).map fun (t, e, q) => (c :: t, e, q)

/-- Scans a quoted scalar after its opening quote from one of its pieces on. -/
def quotedFrom (quote : Char) : Nat → (before : Text) → Place → Option (Text × Place)
  | 0, _, _ => none
  | fuel + 1, before, p =>
    if p.atDocumentMark || p.rest.isEmpty then none
    else
      match quotedPiece quote (p.rest.length + 1) p with
      | none => none
      | some (piece, ending, p) =>
        let value := before ++ piece
        if startsWith quote p.rest then some (value, p.skip 1)
        else
          let g : Gap := if ending = .joined then ⟨[], some [], []⟩ else Gap.empty
          match gap none (p.rest.length + 1) g p with
          | none => none
          | some (g, p) => quotedFrom quote fuel (value ++ g.value) p

/-- Scans a quoted scalar at its opening quote. -/
def quoted (p : Place) : Option (Text × Place) :=
  match p.rest with
  | [] => none
  | quote :: r => quotedFrom quote (r.length + 1) [] (p.skip 1)

/-- What becomes of the line breaks at the end of a block. -/
inductive Chomping where
  /-- All are dropped. -/
  | strip
  /-- One is kept. -/
  | clip
  /-- All are kept. -/
  | keep
  deriving DecidableEq, Repr

/-- The indicators after the bar of a block: what happens to its end and how far it is indented. -/
structure Header where
  /-- What becomes of the line breaks at the end. -/
  chomping : Chomping
  /-- The indentation beyond the surrounding one, if it is given. -/
  increment : Option Nat
  deriving DecidableEq, Repr

/-- Reads a chomping indicator if there is one. -/
def chompingAt (t : Text) : Option Chomping :=
  if startsWith '+' t then some .keep else if startsWith '-' t then some .strip else none

/-- Reads an indentation indicator if there is one; zero is refused. -/
def incrementAt (t : Text) : Option (Option Nat) :=
  match t with
  | c :: _ =>
    if c.isDigit then if c == '0' then none else some (some (c.toNat - '0'.toNat)) else some none
  | [] => some none

/-- Reads the indicators of a block in either order. -/
def header (p : Place) : Option (Header × Place) :=
  match chompingAt p.rest with
  | some chomping =>
    let p := p.skip 1
    (incrementAt p.rest).map fun n => (⟨chomping, n⟩, if n.isSome then p.skip 1 else p)
  | none =>
    match incrementAt p.rest with
    | none => none
    | some none => some (⟨.clip, none⟩, p)
    | some (some n) =>
      let p := p.skip 1
      match chompingAt p.rest with
      | some chomping => some (⟨chomping, some n⟩, p.skip 1)
      | none => some (⟨.clip, some n⟩, p)

/-- Takes the empty lines before a line of a block, up to its indentation: the breaks, the deepest
column and the place. A tab in the indentation is refused. -/
def emptyLines (indent : Option Nat) : Nat → (breaks : Text) → (deepest : Nat) → Place →
    Option (Text × Nat × Place)
  | 0, _, _, _ => none
  | fuel + 1, breaks, deepest, p =>
    let spaces := (p.rest.takeWhile (· == ' ')).length
    let p := p.skip ((indent.map fun n => min spaces (n - p.column)).getD spaces)
    let deepest := max deepest p.column
    if startsWith '\t' p.rest && (indent.map fun n => decide (p.column < n)).getD true then none
    else if (p.rest.head?.map isBreak).getD false then
      emptyLines indent fuel (breaks ++ p.breakText) deepest p.skipBreak
    else some (breaks, deepest, p)

/-- Scans the lines of a block. `before` is the value so far, `lead` the break that ended the line
before, `breaks` the breaks of the empty lines after it; `wasIndented` tells that the line before
started with a blank. -/
def blockLines (folded : Bool) (indent : Nat) : Nat → (before lead breaks : Text) →
    (wasIndented : Bool) → Place → Option (Text × Text × Text × Place)
  | 0, _, _, _, _, _ => none
  | fuel + 1, before, lead, breaks, wasIndented, p =>
    if p.column != indent || p.rest.isEmpty then some (before, lead, breaks, p)
    else
      let isIndented := (p.rest.head?.map isBlank).getD false
      let joint :=
        if folded && lead == ['\n'] && !wasIndented && !isIndented then
          if breaks.isEmpty then [' '] else breaks
        else lead ++ breaks
      let line := p.rest.takeWhile fun c => !isBreak c
      let q := p.skip line.length
      match emptyLines (some indent) (q.rest.length + 1) [] 0 q.skipBreak with
      | none => none
      | some (further, _, r) =>
        blockLines folded indent fuel (before ++ joint ++ line) q.breakText further isIndented r

/-- Scans a block at its bar, inside the given indentation. -/
def block (folded : Bool) (surrounding : Int) (p : Place) : Option (Text × Place) :=
  match header (p.skip 1) with
  | none => none
  | some (h, p) =>
    let p := p.skipWhile isBlank
    let p := if startsWith '#' p.rest then p.skipWhile (fun c => !isBreak c) else p
    if !atLineEnd p.rest then none
    else
      let p := p.skipBreak
      let given := h.increment.map fun n => if 0 ≤ surrounding then surrounding.toNat + n else n
      match emptyLines given (p.rest.length + 1) [] 0 p with
      | none => none
      | some (breaks, deepest, p) =>
        let indent := given.getD (max (max deepest (surrounding + 1).toNat) 1)
        match blockLines folded indent (p.rest.length + 1) [] [] breaks false p with
        | none => none
        | some (value, lead, breaks, p) =>
          match h.chomping with
          | .strip => some (value, p)
          | .clip => some (value ++ lead, p)
          | .keep => some (value ++ lead ++ breaks, p)

end JobSearch.Yaml
