import JobSearch.Json.Error

/-!
# Scanning JSON scalars

White space, literals, strings and numbers are read off the front of a text. Every reader returns
what it read together with the rest, and every fault keeps the rest at which it was found.
-/

namespace JobSearch.Json

/-- The white space of JSON. -/
def isSpace (c : Char) : Bool := c == ' ' || c == '\n' || c == '\t' || c == '\r'

/-- The text without the white space in front. -/
def skipSpace (s : Text) : Text := s.dropWhile isSpace

/-- Reads the remaining characters of a literal. -/
def literalTail : Text → Text → Except Fault Text
  | [], s => .ok s
  | _ :: _, [] => .error (.here .endInValue [])
  | w :: ws, c :: r =>
    if c = w then literalTail ws r else .error (.seen .expectedLiteral (c :: r))

/-- The value of a hexadecimal digit. -/
def hexDigit? (c : Char) : Option Nat :=
  if c.isDigit then some (c.toNat - '0'.toNat)
  else if 'a' ≤ c ∧ c ≤ 'f' then some (c.toNat - 'a'.toNat + 10)
  else if 'A' ≤ c ∧ c ≤ 'F' then some (c.toNat - 'A'.toNat + 10)
  else none

/-- Reads four hexadecimal digits. Four bytes are looked at, whatever they hold. -/
def hexCode (s : Text) : Except Fault (Nat × Text) :=
  if Text.utf8Length (s.take 4) < 4 then .error (.here .endInString [])
  else
    match (s.take 4).mapM hexDigit? with
    | some digits => .ok (digits.foldl (fun n d => 16 * n + d) 0, s.drop 4)
    | none => .error ⟨.invalidEscape, .inside 4, s⟩

/-- The code starts a surrogate pair. -/
def isHighSurrogate (n : Nat) : Bool := 0xD800 ≤ n && n ≤ 0xDBFF

/-- The code ends a surrogate pair. -/
def isLowSurrogate (n : Nat) : Bool := 0xDC00 ≤ n && n ≤ 0xDFFF

/-- Reads what follows the letter `u` of an escape: a code, or the two codes of a surrogate pair. -/
def unicodeEscape (s : Text) : Except Fault (Char × Text) :=
  match hexCode s with
  | .error f => .error f
  | .ok (n, r) =>
    if isLowSurrogate n then .error (.here .loneSurrogate r)
    else if !isHighSurrogate n then .ok (Char.ofNat n, r)
    else
      match r with
      | [] => .error (.here .endInString [])
      | '\\' :: [] => .error (.here .endInString [])
      | '\\' :: 'u' :: t =>
        match hexCode t with
        | .error f => .error f
        | .ok (m, u) =>
          if isLowSurrogate m then
            .ok (Char.ofNat (0x10000 + (n - 0xD800) * 0x400 + (m - 0xDC00)), u)
          else .error (.here .loneSurrogate u)
      | '\\' :: t => .error (.seen .unfinishedSurrogate t)
      | t => .error (.seen .unfinishedSurrogate t)

/-- The character that a short escape stands for. -/
def shortEscape? (c : Char) : Option Char :=
  match c with
  | '"' => some '"'
  | '\\' => some '\\'
  | '/' => some '/'
  | 'b' => some '\x08'
  | 'f' => some '\x0c'
  | 'n' => some '\n'
  | 'r' => some '\r'
  | 't' => some '\t'
  | _ => none

/-- Reads what follows a backslash. -/
def escaped : Text → Except Fault (Char × Text)
  | [] => .error (.here .endInString [])
  | 'u' :: r => unicodeEscape r
  | c :: r =>
    match shortEscape? c with
    | some d => .ok (d, r)
    | none => .error (.seen .invalidEscape (c :: r))

/-- Reads the content of a string and its closing quote. Each step takes a character at least, so
the length of the text is fuel enough. -/
def stringContent : Nat → Text → Except Fault (Text × Text)
  | 0, s => .error (.here .endInString s)
  | _ + 1, [] => .error (.here .endInString [])
  | fuel + 1, c :: r =>
    if c = '"' then .ok ([], r)
    else if c = '\\' then
      match escaped r with
      | .error f => .error f
      | .ok (d, t) => (stringContent fuel t).map fun (ds, u) => (d :: ds, u)
    else if c.toNat < 32 then .error (.seen .controlCharacter (c :: r))
    else (stringContent fuel r).map fun (ds, u) => (c :: ds, u)

/-- Reads a string after its opening quote. -/
def string (s : Text) : Except Fault (Text × Text) := stringContent (s.length + 1) s

/-- The value of a decimal digit. -/
def digitValue (c : Char) : Nat := c.toNat - '0'.toNat

/-- Takes digits into a number as long as it stays within 64 bits; counts them. -/
def takeDigits : Nat → Text → Nat × Nat × Text
  | n, [] => (n, 0, [])
  | n, c :: r =>
    if c.isDigit && 10 * n + digitValue c ≤ Text.maxWord then
      let (m, count, rest) := takeDigits (10 * n + digitValue c) r
      (m, count + 1, rest)
    else (n, 0, c :: r)

/-- The text starts with a digit. -/
def startsWithDigit : Text → Bool
  | [] => false
  | c :: _ => c.isDigit

/-- The largest exponent that is read in full. -/
def maxExponent : Nat := Nat.pow 2 31 - 1

/-- The number with these digits, power of ten and sign. -/
def floatOf (minus : Bool) (n : Nat) (exponent : Int) (rest : Text) :
    Except Fault (Number × Text) :=
  match Binary64.ofDecimal? n exponent with
  | some x => .ok (.float (if minus then x.neg else x), rest)
  | none => .error (.here .numberOutOfRange rest)

/-- Takes the digits of an exponent; stops after the digit that makes it too large. -/
def exponentDigits : Nat → Text → Nat × Bool × Text
  | e, [] => (e, true, [])
  | e, c :: r =>
    if c.isDigit then
      if 10 * e + digitValue c ≤ maxExponent then exponentDigits (10 * e + digitValue c) r
      else (e, false, r)
    else (e, true, c :: r)

/-- Reads what follows the letter of an exponent. -/
def exponentPart (minus : Bool) (n : Nat) (scale : Int) (s : Text) :
    Except Fault (Number × Text) :=
  let (down, r) := match s with
    | '+' :: t => (false, t)
    | '-' :: t => (true, t)
    | t => (false, t)
  match r with
  | [] => .error (.here .endInValue [])
  | c :: t =>
    if !c.isDigit then .error (.seen .invalidNumber (c :: t))
    else
      match exponentDigits (digitValue c) t with
      | (e, true, u) => floatOf minus n (if down then scale - (e : Int) else scale + (e : Int)) u
      | (_, false, u) =>
        if n ≠ 0 ∧ !down then .error (.here .numberOutOfRange u)
        else .ok (.float ⟨minus, 0, 0⟩, u.dropWhile Char.isDigit)

/-- Reads an exponent if there is one. -/
def exponentPart? (minus : Bool) (n : Nat) (scale : Int) (s : Text) :
    Except Fault (Number × Text) :=
  match s with
  | 'e' :: r => exponentPart minus n scale r
  | 'E' :: r => exponentPart minus n scale r
  | r => floatOf minus n scale r

/-- Reads what follows a decimal point. Digits beyond 64 bits are passed over. -/
def fractionPart (minus : Bool) (n : Nat) (scale : Int) (s : Text) :
    Except Fault (Number × Text) :=
  let (m, count, r) := takeDigits n s
  if startsWithDigit r then
    exponentPart? minus m (scale - (count : Int)) (r.dropWhile Char.isDigit)
  else if count = 0 then
    match r with
    | [] => .error (.here .endInValue [])
    | r => .error (.seen .invalidNumber r)
  else exponentPart? minus m (scale - (count : Int)) r

/-- Reads what follows the digits of a whole part that fits 64 bits. -/
def afterWhole (minus : Bool) (n : Nat) (s : Text) : Except Fault (Number × Text) :=
  match s with
  | '.' :: r => fractionPart minus n 0 r
  | 'e' :: r => exponentPart minus n 0 r
  | 'E' :: r => exponentPart minus n 0 r
  | r =>
    if !minus then .ok (.natural (UInt64.ofNat n), r)
    else if 0 < n ∧ n ≤ Nat.pow 2 63 then .ok (.negative n, r)
    else floatOf true n 0 r

/-- Reads what follows the digits of a whole part of which the last did not fit 64 bits. -/
def afterLongWhole (minus : Bool) (n : Nat) (s : Text) : Except Fault (Number × Text) :=
  let (more, r) := s.span Char.isDigit
  match r with
  | '.' :: t => fractionPart minus n more.length t
  | t => exponentPart? minus n more.length t

/-- Reads a number after its minus sign, if it has one. -/
def number (minus : Bool) (s : Text) : Except Fault (Number × Text) :=
  match s with
  | [] => .error (.here .endInValue [])
  | '0' :: r => if startsWithDigit r then .error (.seen .invalidNumber r) else afterWhole minus 0 r
  | c :: r =>
    if !c.isDigit then .error (.seen .invalidNumber (c :: r))
    else
      let (n, _, t) := takeDigits (digitValue c) r
      if startsWithDigit t then afterLongWhole minus n t else afterWhole minus n t

end JobSearch.Json
