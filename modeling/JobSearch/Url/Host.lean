import JobSearch.Url.Error
import JobSearch.Url.Idna

/-!
# Hosts of URLs

A host is a name, an IPv4 address or an IPv6 address. A name that ends in a number is read as an
IPv4 address in one of its shorthands, and an address is written in its canonical form.
-/

namespace JobSearch.Url

/-- The host of a URL. -/
inductive Host where
  /-- A name, empty where a scheme needs no host. -/
  | name (t : Text)
  /-- An IPv4 address as a number of 32 bits. -/
  | ipv4 (n : Nat)
  /-- An IPv6 address as eight pieces of 16 bits. -/
  | ipv6 (pieces : List Nat)
  deriving DecidableEq, Repr

/-! ## IPv4 addresses -/

/-- Reads digits of a base; no digits at all are zero. -/
def readBase? (base : Nat) (t : Text) : Option Nat :=
  (t.mapM fun c => (Percent.hexValue? c).bind fun d => if d < base then some d else none).map
    fun ds => ds.foldl (fun n d => base * n + d) 0

/-- Reads one number of an IPv4 address: decimal, octal after a zero, hexadecimal after `0x`. -/
def ipv4Number? (t : Text) : Option Nat :=
  match t with
  | [] => none
  | '0' :: 'x' :: r => readBase? 16 r
  | '0' :: 'X' :: r => readBase? 16 r
  | '0' :: c :: r => readBase? 8 (c :: r)
  | r => readBase? 10 r

/-- The pieces of a name between dots, without an empty last one. -/
def dotted (t : Text) : List Text :=
  let pieces := t.splitOn '.'
  if pieces.getLast? = some [] then pieces.dropLast else pieces

/-- The last piece of the name is a number. -/
def endsInNumber (t : Text) : Bool :=
  match (dotted t).getLast? with
  | none => false
  | some last => (!last.isEmpty && last.all Char.isDigit) || (ipv4Number? last).isSome

/-- Adds up the numbers of an IPv4 address: each fills a byte from the left, and the last one the
rest. -/
def ipv4Of? (numbers : List Nat) : Option Nat :=
  match numbers.getLast? with
  | none => none
  | some last =>
    let front := numbers.dropLast
    if 3 < front.length ∨ front.any (255 < ·) ∨ Nat.pow 256 (4 - front.length) ≤ last then none
    else some (last + front.zipIdx.foldl (fun sum (n, i) => sum + n * Nat.pow 256 (3 - i)) 0)

/-- Reads an IPv4 address. -/
def ipv4? (t : Text) : Option Nat := ((dotted t).mapM ipv4Number?).bind ipv4Of?

/-- An IPv4 address as four decimal numbers. -/
def ipv4Text (n : Nat) : Text :=
  List.intercalate ['.'] ([3, 2, 1, 0].map fun i => Text.ofNat (n / Nat.pow 256 i % 256))

/-! ## IPv6 addresses -/

/-- Reads up to four hexadecimal digits. -/
def piece : (most : Nat) → (n : Nat) → Text → Nat × Text
  | 0, n, t => (n, t)
  | _, n, [] => (n, [])
  | most + 1, n, c :: r =>
    match Percent.hexValue? c with
    | some d => piece most (16 * n + d) r
    | none => (n, c :: r)

/-- Reads a decimal number up to 255 without leading zeros. -/
def byteNumber? (t : Text) : Option Nat :=
  if t.isEmpty ∨ (t.head? = some '0' ∧ t.length ≠ 1) then none
  else (Text.toNat? t).bind fun n => if n ≤ 255 then some n else none

/-- Reads the two last pieces of an IPv6 address from an IPv4 address of four decimal numbers. -/
def embedded? (t : Text) : Option (List Nat) := do
  match (t.splitOn '.').mapM byteNumber? with
  | some [a, b, c, d] => some [256 * a + b, 256 * c + d]
  | _ => none

/-- Reads the pieces of an IPv6 address from one piece on, with the place of the gap once it is
known. Each step takes a character at least, so the length is fuel enough. -/
def ipv6Pieces : Nat → (count : Nat) → (gap : Option Nat) → Text → Option (List Nat × Option Nat)
  | 0, _, _, _ => none
  | _ + 1, _, gap, [] => some ([], gap)
  | fuel + 1, count, gap, c :: r =>
    if count = 8 then none
    else if c = ':' then
      if gap.isSome then none
      else (ipv6Pieces fuel (count + 1) (some (count + 1)) r).map fun (ps, g) => (0 :: ps, g)
    else
      let (n, t) := piece 4 0 (c :: r)
      match t with
      | [] => some ([n], gap)
      | '.' :: _ =>
        if t.length = (c :: r).length ∨ 6 < count then none
        else (embedded? (c :: r)).map fun ps => (ps, gap)
      | ':' :: u =>
        if u.isEmpty then none
        else (ipv6Pieces fuel (count + 1) gap u).map fun (ps, g) => (n :: ps, g)
      | _ => none

/-- Fills the gap of an IPv6 address with zeros, or checks that there are eight pieces. The gap
itself counts as one piece, which is zero. -/
def fillGap (pieces : List Nat) (gap : Option Nat) : Option (List Nat) :=
  match gap with
  | none => if pieces.length = 8 then some pieces else none
  | some place =>
    if 8 < pieces.length then none
    else some (pieces.take place ++ List.replicate (8 - pieces.length) 0 ++ pieces.drop place)

/-- Reads an IPv6 address. -/
def ipv6? (t : Text) : Option (List Nat) :=
  match t with
  | ':' :: ':' :: r =>
    (ipv6Pieces (r.length + 1) 1 (some 1) r).bind fun (ps, gap) => fillGap (0 :: ps) gap
  | ':' :: _ => none
  | r =>
    if r.length < 2 then none
    else (ipv6Pieces (r.length + 1) 0 none r).bind fun (ps, gap) => fillGap ps gap

/-- The length of the run of zeros at the start. -/
def zeroRun (pieces : List Nat) : Nat := (pieces.takeWhile (· == 0)).length

/-- The first longest run of zeros, as its place and its length. -/
def longestRun : (place : Nat) → List Nat → Nat × Nat
  | place, [] => (place, 0)
  | place, p :: ps =>
    let here := zeroRun (p :: ps)
    let later := longestRun (place + 1) ps
    if later.2 ≤ here then (place, here) else later

/-- Pieces in hexadecimal with colons between. -/
def piecesText (pieces : List Nat) : Text :=
  List.intercalate [':'] (pieces.map fun n => Nat.toDigits 16 n)

/-- An IPv6 address in brackets, with the first longest run of two or more zeros left out. -/
def ipv6Text (pieces : List Nat) : Text :=
  let (place, length) := longestRun 0 pieces
  if length < 2 then '[' :: piecesText pieces ++ [']']
  else '[' :: piecesText (pieces.take place) ++ "::".toList ++
    piecesText (pieces.drop (place + length)) ++ [']']

/-! ## Hosts -/

/-- No host has this character. -/
def isForbiddenInHost (c : Char) : Bool := "\x00\t\n\r #/:<>?@[\\]^|".toList.contains c

/-- Reads a bracketed host. -/
def bracketedHost (t : Text) : Except Error Host :=
  if t.getLast? ≠ some ']' then .error .invalidIPv6
  else
    match ipv6? t.dropLast with
    | some pieces => .ok (.ipv6 pieces)
    | none => .error .invalidIPv6

/-- Reads the host of a special scheme. Its escapes are decoded, and the name that they spell is put
in ASCII. -/
def specialHost (idna : Idna) (t : Text) : Except Error Host :=
  match t with
  | '[' :: r => bracketedHost r
  | t =>
    match idna.name? (Percent.decode t) with
    | none => .error .invalidName
    | some name =>
      if name.isEmpty then .error .emptyHost
      else if endsInNumber name then
        match ipv4? name with
        | some n => .ok (.ipv4 n)
        | none => .error .invalidIPv4
      else .ok (.name name)

/-- Reads the host of any other scheme, which is kept as it is. -/
def plainHost (t : Text) : Except Error Host :=
  match t with
  | '[' :: r => bracketedHost r
  | t =>
    if t.any isForbiddenInHost then .error .invalidCharacter
    else .ok (.name (Percent.encode Percent.notControl t))

/-- The text of a host. -/
def Host.toText : Host → Text
  | .name t => t
  | .ipv4 n => ipv4Text n
  | .ipv6 pieces => ipv6Text pieces

end JobSearch.Url
