import JobSearch.Text.Basic

/-!
# Percent encoding

A text is written byte by byte: a byte that a set keeps stands for itself, any other is written as a
percent sign and two hexadecimal digits. Bytes beyond ASCII are never kept.
-/

namespace JobSearch.Percent

/-- A hexadecimal digit in capitals. -/
def hexDigit (n : Nat) : Char := (Nat.digitChar n).toUpper

/-- A byte written as a percent sign and two digits. -/
def escape (b : UInt8) : Text := ['%', hexDigit (b.toNat / 16), hexDigit (b.toNat % 16)]

/-- A byte written for a set of characters that are kept. -/
def encodeByte (keep : Char → Bool) (b : UInt8) : Text :=
  let c := Char.ofNat b.toNat
  if b < 128 && keep c then [c] else escape b

/-- The text with every byte outside the set escaped. -/
def encode (keep : Char → Bool) (t : Text) : Text := t.utf8.flatMap (encodeByte keep)

/-- The value of a hexadecimal digit. -/
def hexValue? (c : Char) : Option Nat :=
  if c.isDigit then some (c.toNat - '0'.toNat)
  else if 'a' ≤ c ∧ c ≤ 'f' then some (c.toNat - 'a'.toNat + 10)
  else if 'A' ≤ c ∧ c ≤ 'F' then some (c.toNat - 'A'.toNat + 10)
  else none

/-- The byte of two hexadecimal digits. -/
def byteOf? (a b : Char) : Option UInt8 := do
  return (16 * (← hexValue? a) + (← hexValue? b)).toUInt8

/-- The bytes of a text in which escapes stand for their bytes. A percent sign that starts no escape
stands for itself. -/
def decode : Text → List UInt8
  | [] => []
  | '%' :: a :: b :: r =>
    match byteOf? a b with
    | some byte => byte :: decode r
    | none => '%'.toUInt8 :: decode (a :: b :: r)
  | c :: r => String.utf8EncodeChar c ++ decode r

/-- The characters that a search term keeps. -/
def keptInTerm (c : Char) : Bool := c.isAlphanum || "-_.!~*'()".toList.contains c

/-- A space as an escape. -/
def spaceEscape : Text := "%20".toList

/-- A search term as the value of a query: what no term keeps is escaped, then every escaped space
is written as a plus sign instead. -/
def encodeTerm (t : Text) : Text := (encode keptInTerm t).replaceAll spaceEscape ['+']

/-- No control character and no character beyond ASCII. -/
def notControl (c : Char) : Bool := 0x20 ≤ c.toNat && c.toNat < 0x7F

/-- The characters that a fragment keeps. -/
def keptInFragment (c : Char) : Bool := notControl c && !" \"<>`".toList.contains c

/-- The characters that a path keeps. -/
def keptInPath (c : Char) : Bool := keptInFragment c && !"#?\x7b\x7d".toList.contains c

/-- The characters that a user name or a password keeps. -/
def keptInUser (c : Char) : Bool := keptInPath c && !"/:;=@[\\]^|".toList.contains c

/-- The characters that a query keeps; a special scheme escapes the apostrophe as well. -/
def keptInQuery (special : Bool) (c : Char) : Bool :=
  notControl c && !" \"#<>".toList.contains c && !(special && c == '\x27')

end JobSearch.Percent
