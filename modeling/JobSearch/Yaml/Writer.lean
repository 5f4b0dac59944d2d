import JobSearch.Yaml.Literal

/-!
# Writing texts as YAML scalars

A text that is the value of a mapping entry is written plainly if it reads back as the same text,
otherwise between apostrophes; a text of several lines is written as a block. Where a character
could not be seen or a space would be lost, the text is written between quotation marks with
escapes.
-/

namespace JobSearch.Yaml

/-- A character that can be written as it is. -/
def isPrintable (c : Char) : Bool :=
  let n := c.toNat
  n == 0x0A || (0x20 ≤ n && n ≤ 0x7E) || (0xA0 ≤ n && n ≤ 0xFFFD && n != 0xFEFF) || 0x10000 ≤ n

/-- A character that starts something else than a plain scalar. -/
def isIndicator (c : Char) : Bool := "#,[]\x7b\x7d&*!|>\x27\"%@`".toList.contains c

/-- The text would end early or start a comment if it were written plainly. -/
def hasInnerMark : (afterGap : Bool) → Text → Bool
  | _, [] => false
  | afterGap, c :: r =>
    (c == ':' && atGap r) || (c == '#' && afterGap) ||
      hasInnerMark (isBlank c || isBreak c) r

/-- The text starts with something that a plain scalar may not start with. -/
def hasFirstMark (t : Text) : Bool :=
  match t with
  | [] => false
  | c :: r =>
    isIndicator c || ((c == '?' || c == ':' || c == '-') && atGap r) ||
      "---".toList.isPrefixOf t || "...".toList.isPrefixOf t

/-- A space stands right before a line break. -/
def hasSpaceBeforeBreak : Text → Bool
  | c :: d :: r => (c == ' ' && isBreak d) || hasSpaceBeforeBreak (d :: r)
  | _ => false

/-- A space stands right after a line break. -/
def hasSpaceAfterBreak : Text → Bool
  | c :: d :: r => (isBreak c && d == ' ') || hasSpaceAfterBreak (d :: r)
  | _ => false

/-- A character of the text is lost unless it is escaped. -/
def needsEscapes (t : Text) : Bool := !t.all isPrintable || hasSpaceBeforeBreak t

/-- The text can be written plainly. -/
def isPlain (t : Text) : Bool :=
  !isAmbiguous t && !needsEscapes t && !t.any isBreak && t.head? != some ' ' &&
    t.getLast? != some ' ' && !hasFirstMark t && !hasInnerMark true t

/-- The text can be written between apostrophes. -/
def isQuotable (t : Text) : Bool := !needsEscapes t && !hasSpaceAfterBreak t

/-- The text can be written as a block. -/
def isBlock (t : Text) : Bool := t.any (· == '\n') && !needsEscapes t && t.getLast? != some ' '

/-- The spaces in front of the lines after the first one of a scalar. -/
def margin : Text := [' ', ' ']

/-- The text between apostrophes; an apostrophe is written twice and a line break is followed by the
margin. -/
def singleQuotedBody : (afterBreak : Bool) → Text → Text
  | afterBreak, [] => if afterBreak then margin else []
  | afterBreak, c :: r =>
    if isBreak c then c :: singleQuotedBody true r
    else
      (if afterBreak && c != ' ' then margin else []) ++
        (if c == '\x27' then ['\x27', '\x27'] else [c]) ++
        singleQuotedBody (afterBreak && c == ' ') r

/-- The text between apostrophes. -/
def singleQuoted (t : Text) : Text := '\x27' :: singleQuotedBody false t ++ ['\x27']

/-- A number in capital hexadecimal digits. -/
def hexText (width n : Nat) : Text :=
  Text.padZero width ((Nat.toDigits 16 n).map Char.toUpper)

/-- The letter that escapes a character. -/
def letterOf? (c : Char) : Option Char :=
  match c with
  | '\x00' => some '0'
  | '\x07' => some 'a'
  | '\x08' => some 'b'
  | '\t' => some 't'
  | '\n' => some 'n'
  | '\x0b' => some 'v'
  | '\x0c' => some 'f'
  | '\r' => some 'r'
  | '\x1b' => some 'e'
  | '"' => some '"'
  | '\\' => some '\\'
  | '\u0085' => some 'N'
  | '\u00a0' => some '_'
  | '\u2028' => some 'L'
  | '\u2029' => some 'P'
  | _ => none

/-- A character between quotation marks. -/
def escapeChar (c : Char) : Text :=
  if isPrintable c && !isBreak c && c != '"' && c != '\\' then [c]
  else
    match letterOf? c with
    | some d => ['\\', d]
    | none =>
      let n := c.toNat
      if n ≤ 0xFF then '\\' :: 'x' :: hexText 2 n
      else if n ≤ 0xFFFF then '\\' :: 'u' :: hexText 4 n
      else '\\' :: 'U' :: hexText 8 n

/-- The text between quotation marks. -/
def doubleQuoted (t : Text) : Text := '"' :: t.flatMap escapeChar ++ ['"']

/-- The indicators after the bar of a block: the indentation if the text starts with white space,
and what becomes of the line breaks at its end. -/
def blockHints (t : Text) : Text :=
  let indent : Text := match t with
    | c :: _ => if c == ' ' || isBreak c then ['2'] else []
    | [] => []
  let chomp : Text := match t.reverse with
    | c :: d :: _ => if !isBreak c then ['-'] else if isBreak d then ['+'] else []
    | [c] => if isBreak c then ['+'] else ['-']
    | [] => ['-']
  indent ++ chomp

/-- The lines of a block, each behind the margin. -/
def blockBody : (afterBreak : Bool) → Text → Text
  | _, [] => []
  | afterBreak, c :: r =>
    if isBreak c then c :: blockBody true r
    else (if afterBreak then margin else []) ++ c :: blockBody false r

/-- The text as a block of its lines. -/
def literalBlock (t : Text) : Text :=
  '|' :: blockHints t ++ '\n' :: blockBody true t ++
    (if (t.getLast?.map isBreak).getD false then [] else ['\n'])

/-- A text as a scalar, with its style chosen, and the line break behind it. -/
def textLine (t : Text) : Text :=
  if isPlain t then t ++ ['\n']
  else if isBlock t then literalBlock t
  else if !t.any (· == '\n') && isQuotable t then singleQuoted t ++ ['\n']
  else doubleQuoted t ++ ['\n']

/-- An entry of a mapping, given its value with the line break behind it. -/
def entryLine (key line : Text) : Text := key ++ ": ".toList ++ line

end JobSearch.Yaml
