/-!
# The digest of 160 bits

A message of bytes is padded to blocks of 64, and each block changes a state of five 32-bit words in
eighty rounds. The digest is the state after the last block.
-/

namespace JobSearch.Sha1

/-- Five words of 32 bits. -/
structure State where
  /-- The first word. -/
  a : UInt32
  /-- The second word. -/
  b : UInt32
  /-- The third word. -/
  c : UInt32
  /-- The fourth word. -/
  d : UInt32
  /-- The fifth word. -/
  e : UInt32

/-- The state before the first block. -/
def initial : State := ⟨0x67452301, 0xEFCDAB89, 0x98BADCFE, 0x10325476, 0xC3D2E1F0⟩

/-- Turns a word to the left. -/
def rotate (x n : UInt32) : UInt32 := (x <<< n) ||| (x >>> (32 - n))

/-- The bytes of a natural number, the highest first. -/
def bigEndian : (count : Nat) → Nat → List UInt8
  | 0, _ => []
  | count + 1, n => (n / Nat.pow 256 count).toUInt8 :: bigEndian count n

/-- A message with its delimiter, zeros and its length in bits, a whole number of blocks. -/
def pad (message : List UInt8) : List UInt8 :=
  message ++ 0x80 :: List.replicate ((119 - message.length % 64) % 64) 0 ++
    bigEndian 8 (8 * message.length)

/-- The words of a block. -/
def wordsOf : List UInt8 → List UInt32
  | a :: b :: c :: d :: r =>
    ((a.toUInt32 <<< 24) ||| (b.toUInt32 <<< 16) ||| (c.toUInt32 <<< 8) ||| d.toUInt32) :: wordsOf r
  | _ => []

/-- The next word of the schedule from the sixteen words before it, the latest first. -/
def nextWord (latest : List UInt32) : UInt32 :=
  rotate ((latest.getD 2 0) ^^^ (latest.getD 7 0) ^^^ (latest.getD 13 0) ^^^ (latest.getD 15 0)) 1

/-- Extends a schedule, kept with the latest word first. -/
def extend : (more : Nat) → List UInt32 → List UInt32
  | 0, latest => latest
  | more + 1, latest => extend more (nextWord latest :: latest)

/-- The eighty words of a block. -/
def schedule (block : List UInt8) : List UInt32 := (extend 64 (wordsOf block).reverse).reverse

/-- The function and the constant of a round. -/
def mix (round : Nat) (s : State) : UInt32 × UInt32 :=
  if round < 20 then ((s.b &&& s.c) ||| (~~~s.b &&& s.d), 0x5A827999)
  else if round < 40 then (s.b ^^^ s.c ^^^ s.d, 0x6ED9EBA1)
  else if round < 60 then ((s.b &&& s.c) ||| (s.b &&& s.d) ||| (s.c &&& s.d), 0x8F1BBCDC)
  else (s.b ^^^ s.c ^^^ s.d, 0xCA62C1D6)

/-- One round. -/
def step (s : State) (word : UInt32) (round : Nat) : State :=
  let (f, k) := mix round s
  ⟨rotate s.a 5 + f + s.e + k + word, s.a, rotate s.b 30, s.c, s.d⟩

/-- The rounds of a block from a given one on. -/
def rounds : (round : Nat) → State → List UInt32 → State
  | _, s, [] => s
  | round, s, w :: ws => rounds (round + 1) (step s w round) ws

/-- The state after a block. -/
def compress (s : State) (block : List UInt8) : State :=
  let t := rounds 0 s (schedule block)
  ⟨s.a + t.a, s.b + t.b, s.c + t.c, s.d + t.d, s.e + t.e⟩

/-- The state after a number of blocks. -/
def absorb : (blocks : Nat) → State → List UInt8 → State
  | 0, s, _ => s
  | blocks + 1, s, bytes => absorb blocks (compress s (bytes.take 64)) (bytes.drop 64)

/-- The twenty bytes of the digest of a message. -/
def digest (message : List UInt8) : List UInt8 :=
  let bytes := pad message
  let s := absorb (bytes.length / 64) initial bytes
  [s.a, s.b, s.c, s.d, s.e].flatMap fun w => bigEndian 4 w.toNat

end JobSearch.Sha1
