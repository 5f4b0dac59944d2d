import JobSearch.Text.Quoted
import JobSearch.Json.Binary64

/-!
# Faults of JSON text

A reader of JSON works on the rest of a text. A fault keeps the rest it was found at, so that its
line and column follow from the whole text alone: lines count from one and columns count the bytes
of the line up to the fault.
-/

namespace JobSearch.Json

/-- A number as it is written in JSON: a 64-bit natural number, a negative one, or any other. -/
inductive Number where
  /-- A natural number of 64 bits. -/
  | natural (n : UInt64)
  /-- The negative of a positive number up to 2^63. -/
  | negative (n : Nat)
  /-- A number written with a fraction or an exponent, beyond 64 bits, or `-0`. -/
  | float (x : Binary64)
  deriving DecidableEq, Repr

/-- The text of a number. -/
def Number.toText : Number → Text
  | .natural n => Text.ofNat n.toNat
  | .negative n => '-' :: Text.ofNat n
  | .float x => x.toText

/-- What a reader found in place of what it wanted. -/
inductive Found where
  /-- The literal `null`. -/
  | null
  /-- A truth value. -/
  | bool (b : Bool)
  /-- A number. -/
  | number (n : Number)
  /-- A string with this content. -/
  | string (t : Text)
  /-- The start of an array. -/
  | array
  /-- The start of an object. -/
  | object
  deriving DecidableEq, Repr

/-- What was found, in words. -/
def Found.describe : Found → Text
  | .null => "null".toList
  | .bool true => "boolean `true`".toList
  | .bool false => "boolean `false`".toList
  | .number (.float x) => "floating point `".toList ++ x.toText ++ "`".toList
  | .number n => "integer `".toList ++ n.toText ++ "`".toList
  | .string t => "string ".toList ++ Quoted.showText t
  | .array => "sequence".toList
  | .object => "map".toList

/-- Why a text could not be read. -/
inductive Cause where
  /-- The text ends inside an array. -/
  | endInArray
  /-- The text ends inside an object. -/
  | endInObject
  /-- The text ends inside a string. -/
  | endInString
  /-- The text ends where a value should be. -/
  | endInValue
  /-- A member name is not followed by a colon. -/
  | expectedColon
  /-- An element is followed by neither a comma nor the closing bracket. -/
  | expectedCommaOrBracket
  /-- A member is followed by neither a comma nor the closing brace. -/
  | expectedCommaOrBrace
  /-- A word that starts like a literal is another word. -/
  | expectedLiteral
  /-- No value starts here. -/
  | expectedValue
  /-- A backslash is followed by no known escape. -/
  | invalidEscape
  /-- A number breaks the grammar of numbers. -/
  | invalidNumber
  /-- A number is too large. -/
  | numberOutOfRange
  /-- A control character stands unescaped in a string. -/
  | controlCharacter
  /-- A member name is not a string. -/
  | keyNotString
  /-- Half of a surrogate pair is escaped alone. -/
  | loneSurrogate
  /-- The first half of a surrogate pair is not followed by an escape. -/
  | unfinishedSurrogate
  /-- A comma is followed by the closing bracket. -/
  | trailingComma
  /-- Something follows the end. -/
  | trailingCharacters
  /-- Brackets nest too deeply. -/
  | tooDeep
  /-- A value of another kind was wanted. -/
  | wrongKind (found : Found) (wanted : Text)
  /-- An array has too few elements. -/
  | tooShort (length : Nat) (wanted : Text)
  /-- An object lacks a member. -/
  | missingMember (name : Text)
  /-- An object has a member twice. -/
  | duplicateMember (name : Text)
  /-- The value was read and then refused, with this message. -/
  | refused (message : Text)
  deriving DecidableEq, Repr

/-- The cause in words. -/
def Cause.describe : Cause → Text
  | .endInArray => "EOF while parsing a list".toList
  | .endInObject => "EOF while parsing an object".toList
  | .endInString => "EOF while parsing a string".toList
  | .endInValue => "EOF while parsing a value".toList
  | .expectedColon => "expected `:`".toList
  | .expectedCommaOrBracket => "expected `,` or `]`".toList
  | .expectedCommaOrBrace => "expected `,` or `\x7d`".toList
  | .expectedLiteral => "expected ident".toList
  | .expectedValue => "expected value".toList
  | .invalidEscape => "invalid escape".toList
  | .invalidNumber => "invalid number".toList
  | .numberOutOfRange => "number out of range".toList
  | .controlCharacter =>
    "control character (\\u0000-\\u001F) found while parsing a string".toList
  | .keyNotString => "key must be a string".toList
  | .loneSurrogate => "lone leading surrogate in hex escape".toList
  | .unfinishedSurrogate => "unexpected end of hex escape".toList
  | .trailingComma => "trailing comma".toList
  | .trailingCharacters => "trailing characters".toList
  | .tooDeep => "recursion limit exceeded".toList
  | .wrongKind found wanted =>
    "invalid type: ".toList ++ found.describe ++ ", expected ".toList ++ wanted
  | .tooShort length wanted =>
    "invalid length ".toList ++ Text.ofNat length ++ ", expected ".toList ++ wanted
  | .missingMember name => "missing field `".toList ++ name ++ "`".toList
  | .duplicateMember name => "duplicate field `".toList ++ name ++ "`".toList
  | .refused message => message

/-- A place in a text. -/
structure Position where
  /-- The line, counted from one. -/
  line : Nat
  /-- The bytes of the line before the place. -/
  column : Nat
  deriving DecidableEq, Repr

namespace Position

/-- The start of a text. -/
def start : Position := ⟨1, 0⟩

/-- The place after one more character. -/
def next (p : Position) (c : Char) : Position :=
  if c = '\n' then ⟨p.line + 1, 0⟩ else ⟨p.line, p.column + c.utf8Size⟩

/-- The place some bytes further, at most at the end of the text. -/
def ahead (p : Position) : Nat → Text → Position
  | 0, _ => p
  | _, [] => p
  | bytes, c :: r =>
    if c.utf8Size ≤ bytes then ahead (p.next c) (bytes - c.utf8Size) r
    else ⟨p.line, p.column + bytes⟩

/-- The place in `text` where `rest` is left and some bytes of it are passed as well. -/
def locate (text rest : Text) (bytes : Nat) : Position :=
  ahead ((text.take (text.length - rest.length)).foldl next start) bytes rest

end Position

/-- Where a fault belongs. -/
inductive Place where
  /-- At the start of the rest, or some bytes into it. -/
  | inside (bytes : Nat)
  /-- After the bracket that closes the enclosing array or object. -/
  | afterEnclosing
  /-- At a place that the refusing message itself names. -/
  | stated (position : Position)
  deriving DecidableEq, Repr

/-- A fault found while reading. -/
structure Fault where
  /-- Why reading stopped. -/
  cause : Cause
  /-- Where the fault belongs. -/
  place : Place
  /-- The text that was left. -/
  rest : Text
  deriving DecidableEq, Repr

namespace Fault

/-- A fault at the start of the rest. -/
def here (cause : Cause) (rest : Text) : Fault := ⟨cause, .inside 0, rest⟩

/-- A fault at the first byte of the rest, which counts as seen. -/
def seen (cause : Cause) (rest : Text) : Fault := ⟨cause, .inside 1, rest⟩

/-- A fault that belongs where the enclosing array or object ends. -/
def pending (cause : Cause) (rest : Text) : Fault := ⟨cause, .afterEnclosing, rest⟩

/-- Gives a fault without a place of its own the place after the enclosing value. -/
def settle (f : Fault) (close : Text → Text) : Fault :=
  match f.place with
  | .afterEnclosing => here f.cause (close f.rest)
  | _ => f

end Fault

/-- A reader takes a value off the front of a text, or finds a fault. -/
abbrev Reader (α : Type) := Text → Except Fault (α × Text)

/-- A fault with its place in the whole text. -/
structure Error where
  /-- Why the text could not be read. -/
  cause : Cause
  /-- Where reading stopped. -/
  position : Position
  deriving DecidableEq, Repr

/-- The fault as an error of the whole text. -/
def Fault.inText (f : Fault) (text : Text) : Error :=
  match f.place with
  | .inside bytes => ⟨f.cause, Position.locate text f.rest bytes⟩
  | .afterEnclosing => ⟨f.cause, Position.locate text f.rest 0⟩
  | .stated position => ⟨f.cause, position⟩

/-- The error in words. -/
def Error.message (e : Error) : Text :=
  e.cause.describe ++ " at line ".toList ++ Text.ofNat e.position.line ++
    " column ".toList ++ Text.ofNat e.position.column

/-- What stands before the last `needle` and after it. -/
def cutAtLast? (needle : Text) : Text → Option (Text × Text)
  | [] => none
  | c :: r =>
    match cutAtLast? needle r with
    | some (before, after) => some (c :: before, after)
    | none => if needle.isPrefixOf (c :: r) then some ([], (c :: r).drop needle.length) else none

/-- Splits off a place at the end of a message, as `Error.message` writes one. -/
def splitPlace? (message : Text) : Option (Text × Position) :=
  match cutAtLast? " at line ".toList message with
  | none => none
  | some (before, after) =>
    let (lineDigits, rest) := after.span Char.isDigit
    if " column ".toList.isPrefixOf rest then
      match Text.toWord? lineDigits, Text.toWord? (rest.drop 8) with
      | some line, some column =>
        if (rest.drop 8).all Char.isDigit then some (before, ⟨line.toNat, column.toNat⟩) else none
      | _, _ => none
    else none

/-- The fault of a value refused with a message. A message that ends with a place keeps it, unless
the line is zero; any other belongs where the enclosing value ends. -/
def Fault.refused (message rest : Text) : Fault :=
  match splitPlace? message with
  | some (before, position) =>
    if position.line = 0 then pending (.refused before) rest
    else ⟨.refused before, .stated position, rest⟩
  | none => pending (.refused message) rest

end JobSearch.Json
