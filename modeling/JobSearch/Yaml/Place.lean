import JobSearch.Text.Basic

/-!
# Places in a YAML text

A place is the rest of a text with the number of characters before it, its line and its column.
Blanks and line breaks are the classes of YAML, which are narrower than white space in general.
-/

namespace JobSearch.Yaml

/-- A space or a tab. -/
def isBlank (c : Char) : Bool := c == ' ' || c == '\t'

/-- A character that ends a line. -/
def isBreak (c : Char) : Bool :=
  c == '\n' || c == '\r' || c == '\u0085' || c == '\u2028' || c == '\u2029'

/-- A character that may stand in a YAML text. -/
def isAllowed (c : Char) : Bool :=
  let n := c.toNat
  n == 0x09 || n == 0x0A || n == 0x0D || (0x20 ≤ n && n ≤ 0x7E) || n == 0x85 ||
    (0xA0 ≤ n && n ≤ 0xD7FF) || (0xE000 ≤ n && n ≤ 0xFFFD) || 0x10000 ≤ n

/-- The text starts with a blank or a line break, or ends. -/
def atGap (t : Text) : Bool :=
  match t with
  | [] => true
  | c :: _ => isBlank c || isBreak c

/-- The text starts with a line break, or ends. -/
def atLineEnd (t : Text) : Bool :=
  match t with
  | [] => true
  | c :: _ => isBreak c

/-- The text starts with this character. -/
def startsWith (c : Char) (t : Text) : Bool := t.head? == some c

/-- A place in a text. -/
structure Place where
  /-- The text from the place on. -/
  rest : Text
  /-- The number of characters before the place. -/
  index : Nat
  /-- The line, counted from zero. -/
  line : Nat
  /-- The column, counted from zero. -/
  column : Nat
  deriving DecidableEq, Repr

namespace Place

/-- The start of a text. -/
def start (t : Text) : Place := ⟨t, 0, 0, 0⟩

/-- The place some characters further on the line. -/
def skip (p : Place) (count : Nat) : Place :=
  ⟨p.rest.drop count, p.index + count, p.line, p.column + count⟩

/-- The place after the characters of a class. -/
def skipWhile (p : Place) (isIn : Char → Bool) : Place := p.skip (p.rest.takeWhile isIn).length

/-- The place after a line break; a carriage return and a line feed are one break. -/
def skipBreak (p : Place) : Place :=
  match p.rest with
  | '\r' :: '\n' :: r => ⟨r, p.index + 2, p.line + 1, 0⟩
  | c :: r => if isBreak c then ⟨r, p.index + 1, p.line + 1, 0⟩ else p
  | [] => p

/-- The text of a line break: a line feed, unless it is one of the separators that are kept. -/
def breakText (p : Place) : Text :=
  match p.rest with
  | c :: _ =>
    if c == '\u2028' || c == '\u2029' then [c] else if isBreak c then ['\n'] else []
  | [] => []

/-- A line starts here with a mark of three characters that separates documents. -/
def atMark (mark : Char) (p : Place) : Bool :=
  p.column == 0 && p.rest.take 3 == [mark, mark, mark] && atGap (p.rest.drop 3)

/-- A line starts here with a mark that separates documents. -/
def atDocumentMark (p : Place) : Bool := p.atMark '-' || p.atMark '.'

end Place

end JobSearch.Yaml
