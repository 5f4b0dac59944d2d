import JobSearch.Url.Percent

/-!
# Domain names in ASCII

A name in any script is written in ASCII before it stands in a URL. Names of ASCII characters are
put in small letters. For names beyond ASCII, and for those with labels that are encoded already,
this takes the tables of Unicode and the encoding of labels, which are given from outside.
-/

namespace JobSearch.Url

/-- The rules for domain names in all scripts. -/
structure Idna where
  /-- The ASCII form of the name in these bytes, if it has one. Only names that are not plain are
  asked for. -/
  toAscii? : List UInt8 → Option Text

/-- No name has this character. -/
def isForbiddenInName (c : Char) : Bool :=
  c.toNat ≤ 0x20 || c.toNat == 0x7F || "%#/:<>?@[\\]^|".toList.contains c

/-- The characters with these numbers, in small letters. -/
def smallLetters (bytes : List UInt8) : Text :=
  Text.lower (bytes.map fun b => Char.ofNat b.toNat)

/-- The name is of ASCII characters and has no label that is encoded. -/
def isPlainName (bytes : List UInt8) : Bool :=
  bytes.all (· < 128) && !((smallLetters bytes).splitOn '.').any ("xn--".toList.isPrefixOf ·)

/-- The name in small letters, if it is of ASCII characters that a name may have. -/
def asciiName? (bytes : List UInt8) : Option Text :=
  if bytes.all (· < 128) && !(smallLetters bytes).any isForbiddenInName then
    some (smallLetters bytes)
  else none

namespace Idna

/-- The ASCII form of a name, if it has one. -/
def name? (idna : Idna) (bytes : List UInt8) : Option Text :=
  if isPlainName bytes then asciiName? bytes else idna.toAscii? bytes

/-- The rules for the names of a table, given with their ASCII forms. Other names are taken as they
are if they are of ASCII characters; whether their encoded labels stand for anything is not
checked. -/
def ofTable (names : List (Text × Text)) : Idna where
  toAscii? bytes := ((names.find? fun n => n.1.utf8 == bytes).map (·.2)).or (asciiName? bytes)

end Idna

end JobSearch.Url
