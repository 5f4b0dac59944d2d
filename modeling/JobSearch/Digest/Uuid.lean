import JobSearch.Digest.Sha1
import JobSearch.Text.Basic

/-!
# Identifiers derived from names

An identifier of sixteen bytes is derived from a namespace and a name: the digest of both, cut short
and stamped with the version and the variant of such identifiers.
-/

namespace JobSearch

/-- An identifier of sixteen bytes. -/
structure Uuid where
  /-- The bytes, the highest first. -/
  bytes : List UInt8
  deriving DecidableEq, Repr

namespace Uuid

/-- The identifier with this value as a 128-bit number. -/
def ofNat (n : Nat) : Uuid := ⟨Sha1.bigEndian 16 n⟩

/-- Stamps the version into byte 6 and the variant into byte 8. -/
def stamp (bytes : List UInt8) : List UInt8 :=
  (bytes.modify 6 fun b => (b &&& 0x0F) ||| 0x50).modify 8 fun b => (b &&& 0x3F) ||| 0x80

/-- The identifier of a name, given as bytes, within a namespace. -/
def ofName (space : Uuid) (name : List UInt8) : Uuid :=
  ⟨stamp ((Sha1.digest (space.bytes ++ name)).take 16)⟩

/-- Two hexadecimal digits. -/
def hexByte (b : UInt8) : Text :=
  [Nat.digitChar (b.toNat / 16), Nat.digitChar (b.toNat % 16)]

/-- The identifier in hexadecimal digits, in five groups with hyphens between. -/
def toText (u : Uuid) : Text :=
  let digits := u.bytes.flatMap hexByte
  List.intercalate ['-']
    [digits.take 8, (digits.drop 8).take 4, (digits.drop 12).take 4, (digits.drop 16).take 4,
      digits.drop 20]

end Uuid

end JobSearch
