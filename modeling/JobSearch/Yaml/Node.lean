import JobSearch.Yaml.Token

/-!
# Nodes of a YAML document

Tokens are read into the tree of one document. A reference stands for the node with its anchor,
which is kept in a table of the document, so a node may even refer to a node around it.
-/

namespace JobSearch.Yaml

/-- A node of a document. -/
inductive Node where
  /-- A scalar with its tag, if it has one. -/
  | scalar (tag : Option Text) (style : Style) (value : Text)
  /-- A sequence. -/
  | sequence (items : List Node)
  /-- A mapping. Keys are nodes and may repeat. -/
  | mapping (entries : List (Node × Node))
  /-- The node with an anchor, by the number of the anchor. -/
  | reference (anchor : Nat)
  deriving Repr

/-- A scalar that is not there. -/
def Node.missing (tag : Option Text) : Node := .scalar tag .plain []

/-- A document: its root, unless there is no content at all, and its nodes with anchors. -/
structure Document where
  /-- The root. -/
  root : Option Node
  /-- The nodes with anchors, by their numbers. -/
  anchored : List (Nat × Node)
  deriving Repr

/-- The node itself, or the one that it refers to. -/
def Document.resolve (d : Document) : Node → Option Node
  | .reference n => d.anchored.lookup n
  | node => some node

/-- What reading a document has come to. -/
structure Progress where
  /-- The tokens that are left. -/
  tokens : List Token
  /-- The number of anchors so far. -/
  count : Nat
  /-- The names of the anchors so far, the latest first. -/
  names : List (Text × Nat)
  /-- The finished nodes with anchors, the latest first. -/
  anchored : List (Nat × Node)

namespace Progress

/-- The next token; after the last one there are only ends. -/
def peek (s : Progress) : Token := s.tokens.headD .finish

/-- Passes over the next token. -/
def skip (s : Progress) : Progress := { s with tokens := s.tokens.tail }

/-- Gives a name the next number. -/
def declare (s : Progress) (name : Text) : Progress :=
  { s with count := s.count + 1, names := (name, s.count) :: s.names }

end Progress

/-- The anchor and the tag of a node. -/
structure Properties where
  /-- The name of the anchor. -/
  anchor : Option Text
  /-- The handle and the suffix of the tag. -/
  tag : Option (Text × Text)

/-- Reads the anchor and the tag of a node, in either order. -/
def properties (s : Progress) : Properties × Progress :=
  match s.peek with
  | .anchor name =>
    let s := s.skip
    match s.peek with
    | .tag handle suffix => (⟨some name, some (handle, suffix)⟩, s.skip)
    | _ => (⟨some name, none⟩, s)
  | .tag handle suffix =>
    let s := s.skip
    match s.peek with
    | .anchor name => (⟨some name, some (handle, suffix)⟩, s.skip)
    | _ => (⟨none, some (handle, suffix)⟩, s)
  | _ => (⟨none, none⟩, s)

/-- The full text of a tag. Only declared handles have one. -/
def fullTag (handles : List (Text × Text)) : Option (Text × Text) → Option (Option Text)
  | none => some none
  | some (handle, suffix) =>
    if handle.isEmpty then some (some suffix)
    else (handles.lookup handle).map fun start => some (start ++ suffix)

/-- The token ends an entry of a block collection. -/
def Token.endsBlockItem : Token → Bool
  | .key => true
  | .value => true
  | .blockEnd => true
  | _ => false

/-- The token is among the given ones. -/
def Token.isOneOf (t : Token) (ts : List Token) : Bool := ts.contains t

mutual

/-- Reads a node. Block collections are only read where `inBlock` holds, sequences that are not
indented only where `flush` holds. Each call or token takes one unit of fuel. -/
def node (handles : List (Text × Text)) : Nat → (inBlock flush : Bool) → Progress →
    Option (Node × Progress)
  | 0, _, _, _ => none
  | fuel + 1, inBlock, flush, s =>
    match s.peek with
    | .reference name => (s.names.lookup name).map fun n => (.reference n, s.skip)
    | _ =>
      let (props, s) := properties s
      match fullTag handles props.tag with
      | none => none
      | some tag =>
        let number := s.count
        let s := match props.anchor with
          | some name => s.declare name
          | none => s
        let content : Option (Node × Progress) :=
          match s.peek with
          | .scalar style value => some (.scalar tag style value, s.skip)
          | .openBracket =>
            (flowItems handles fuel true s.skip).map fun (xs, s) => (.sequence xs, s)
          | .openBrace =>
            (flowEntries handles fuel true s.skip).map fun (es, s) => (.mapping es, s)
          | t =>
            if flush && t == .entry then
              (flushItems handles fuel s).map fun (xs, s) => (.sequence xs, s)
            else if inBlock && t == .blockSequence then
              (blockItems handles fuel s.skip).map fun (xs, s) => (.sequence xs, s)
            else if inBlock && t == .blockMapping then
              (blockEntries handles fuel s.skip).map fun (es, s) => (.mapping es, s)
            else if props.anchor.isSome || props.tag.isSome then some (.missing tag, s)
            else none
        match props.anchor, content with
        | some _, some (x, s) => some (x, { s with anchored := (number, x) :: s.anchored })
        | _, content => content

/-- Reads the entries of an indented sequence and its end. -/
def blockItems (handles : List (Text × Text)) : Nat → Progress → Option (List Node × Progress)
  | 0, _ => none
  | fuel + 1, s =>
    match s.peek with
    | .entry =>
      let s := s.skip
      if s.peek.isOneOf [.entry, .blockEnd] then
        (blockItems handles fuel s).map fun (xs, s) => (.missing none :: xs, s)
      else
        match node handles fuel true false s with
        | none => none
        | some (x, s) => (blockItems handles fuel s).map fun (xs, s) => (x :: xs, s)
    | .blockEnd => some ([], s.skip)
    | _ => none

/-- Reads the entries of a sequence that is not indented; what follows is left. -/
def flushItems (handles : List (Text × Text)) : Nat → Progress → Option (List Node × Progress)
  | 0, _ => none
  | fuel + 1, s =>
    match s.peek with
    | .entry =>
      let s := s.skip
      if s.peek.isOneOf [.entry, .key, .value, .blockEnd] then
        (flushItems handles fuel s).map fun (xs, s) => (.missing none :: xs, s)
      else
        match node handles fuel true false s with
        | none => none
        | some (x, s) => (flushItems handles fuel s).map fun (xs, s) => (x :: xs, s)
    | _ => some ([], s)

/-- Reads the key or the value of an entry of a block mapping, which may be missing. -/
def blockPart (handles : List (Text × Text)) : Nat → Progress → Option (Node × Progress)
  | 0, _ => none
  | fuel + 1, s =>
    if s.peek.endsBlockItem then some (.missing none, s) else node handles fuel true true s

/-- Reads the entries of an indented mapping and its end. -/
def blockEntries (handles : List (Text × Text)) : Nat → Progress →
    Option (List (Node × Node) × Progress)
  | 0, _ => none
  | fuel + 1, s =>
    match s.peek with
    | .key =>
      match blockPart handles fuel s.skip with
      | none => none
      | some (k, s) =>
        if s.peek == .value then
          match blockPart handles fuel s.skip with
          | none => none
          | some (v, s) => (blockEntries handles fuel s).map fun (es, s) => ((k, v) :: es, s)
        else (blockEntries handles fuel s).map fun (es, s) => ((k, .missing none) :: es, s)
    | .blockEnd => some ([], s.skip)
    | _ => none

/-- Reads the key or the value of an entry inside brackets, which may be missing before one of the
given tokens. -/
def flowPart (handles : List (Text × Text)) : Nat → (ends : List Token) → Progress →
    Option (Node × Progress)
  | 0, _, _ => none
  | fuel + 1, ends, s =>
    if s.peek.isOneOf ends then some (.missing none, s) else node handles fuel false false s

/-- Reads the items of a bracketed sequence and its end. An item may be a single entry of a
mapping. -/
def flowItems (handles : List (Text × Text)) : Nat → (first : Bool) → Progress →
    Option (List Node × Progress)
  | 0, _, _ => none
  | fuel + 1, first, s =>
    if s.peek == .closeBracket then some ([], s.skip)
    else if !first && s.peek != .comma then none
    else
      let s := if first then s else s.skip
      if s.peek == .key then
        let s := s.skip
        let absent := s.peek.isOneOf [.value, .comma, .closeBracket]
        let k :=
          if absent then some (.missing none, s.skip) else node handles fuel false false s
        match k with
        | none => none
        | some (k, s) =>
          let v :=
            if s.peek == .value then flowPart handles fuel [.comma, .closeBracket] s.skip
            else some (.missing none, s)
          match v with
          | none => none
          | some (v, s) =>
            (flowItems handles fuel false s).map fun (xs, s) => (.mapping [(k, v)] :: xs, s)
      else if s.peek == .closeBracket then some ([], s.skip)
      else
        match node handles fuel false false s with
        | none => none
        | some (x, s) => (flowItems handles fuel false s).map fun (xs, s) => (x :: xs, s)

/-- Reads the entries of a mapping in braces and its end. A key may stand without a value. -/
def flowEntries (handles : List (Text × Text)) : Nat → (first : Bool) → Progress →
    Option (List (Node × Node) × Progress)
  | 0, _, _ => none
  | fuel + 1, first, s =>
    if s.peek == .closeBrace then some ([], s.skip)
    else if !first && s.peek != .comma then none
    else
      let s := if first then s else s.skip
      if s.peek == .key then
        match flowPart handles fuel [.value, .comma, .closeBrace] s.skip with
        | none => none
        | some (k, s) =>
          let v :=
            if s.peek == .value then flowPart handles fuel [.comma, .closeBrace] s.skip
            else some (.missing none, s)
          match v with
          | none => none
          | some (v, s) =>
            (flowEntries handles fuel false s).map fun (es, s) => ((k, v) :: es, s)
      else if s.peek == .closeBrace then some ([], s.skip)
      else
        match node handles fuel false false s with
        | none => none
        | some (k, s) =>
          (flowEntries handles fuel false s).map fun (es, s) => ((k, .missing none) :: es, s)

end

/-- The handles of tags that need no directive. -/
def usualHandles : List (Text × Text) :=
  [("!".toList, "!".toList), ("!!".toList, "tag:yaml.org,2002:".toList)]

/-- Reads the directives before a document: the handles, whether a version was given, and the
tokens that are left. A version may be given once, and so may each handle. -/
def directives (handles : List (Text × Text)) (versioned : Bool) :
    List Token → Option (List (Text × Text) × List Token)
  | .version major minor :: ts =>
    if versioned || major != 1 || !(minor == 1 || minor == 2) then none
    else directives handles true ts
  | .tagHandle handle start :: ts =>
    if (handles.lookup handle).isSome then none
    else directives ((handle, start) :: handles) versioned ts
  | ts => some (handles, ts)

/-- Passes over the marks that end a document; nothing may follow. -/
def onlyEnds : List Token → Bool
  | .documentEnd :: ts => onlyEnds ts
  | .finish :: _ => true
  | [] => true
  | _ => false

/-- The document has no content before this token. -/
def Token.endsDocument : Token → Bool
  | .version .. => true
  | .tagHandle .. => true
  | .documentStart => true
  | .documentEnd => true
  | .finish => true
  | _ => false

/-- Reads the content of the only document. -/
def content (handles : List (Text × Text)) (ts : List Token) : Option Document :=
  match node handles (3 * ts.length + 3) true false ⟨ts, 0, [], []⟩ with
  | none => none
  | some (root, s) => if onlyEnds s.tokens then some ⟨some root, s.anchored⟩ else none

/-- Reads the only document of a text. -/
def Document.ofTokens? (ts : List Token) : Option Document :=
  match ts with
  | [] => some ⟨none, []⟩
  | .finish :: _ => some ⟨none, []⟩
  | t :: _ =>
    if t matches .version .. | .tagHandle .. | .documentStart then
      match directives [] false ts with
      | some (handles, .documentStart :: rest) =>
        if (rest.headD .finish).endsDocument then
          if onlyEnds rest then some ⟨some (.missing none), []⟩ else none
        else content (handles ++ usualHandles) rest
      | _ => none
    else content usualHandles ts

/-- Reads a text of one document, or of none. -/
def Document.ofText? (t : Text) : Option Document := (tokens t).bind Document.ofTokens?

end JobSearch.Yaml
