/-!
# Texts as lists of characters

A text is the list of its characters, so a statement about a text is a statement about a list.
White space is the Unicode property of that name, and the words of a text are its maximal runs of
characters without it.
-/

namespace JobSearch

/-- A text, character by character. -/
abbrev Text := List Char

namespace Text

/-- The characters with the Unicode property `White_Space`. -/
def isBlank (c : Char) : Bool :=
  let n := c.toNat
  (9 ≤ n && n ≤ 13) || n == 0x20 || n == 0x85 || n == 0xA0 || n == 0x1680 ||
    (0x2000 ≤ n && n ≤ 0x200A) || n == 0x2028 || n == 0x2029 || n == 0x202F || n == 0x205F ||
    n == 0x3000

/-- A text of white space only, such as the empty text. -/
def isAllBlank (t : Text) : Bool := t.all isBlank

/-- The text without the white space in front. -/
def trimStart (t : Text) : Text := t.dropWhile isBlank

/-- The text without the white space at the end. -/
def trimEnd (t : Text) : Text := (t.reverse.dropWhile isBlank).reverse

/-- The text without the white space at either end. -/
def trim (t : Text) : Text := trimEnd (trimStart t)

/-- The maximal runs of characters that are not white space, in order. -/
def words (t : Text) : List Text := (t.splitOnP isBlank).filter (fun w => !w.isEmpty)

/-- The pieces between white space hold none. -/
theorem not_isBlank_of_mem_splitOnP {t w : Text} (h : w ∈ t.splitOnP isBlank) :
    ∀ c ∈ w, isBlank c = false := by
  induction t generalizing w with
  | nil =>
    simp only [List.splitOnP_nil, List.mem_singleton] at h
    simp [h]
  | cons d t ih =>
    rw [List.splitOnP_cons_eq_if_modifyHead] at h
    split at h
    · rcases List.mem_cons.mp h with h | h
      · simp [h]
      · exact ih h
    · next hd =>
      cases hs : t.splitOnP isBlank with
      | nil => simp [hs] at h
      | cons v vs =>
        simp only [hs, List.modifyHead_cons, List.mem_cons] at h ih
        rcases h with h | h
        · intro c hc
          rw [h] at hc
          rcases List.mem_cons.mp hc with hc | hc
          · simpa [hc] using hd
          · exact ih (Or.inl rfl) c hc
        · exact ih (Or.inr h)

/-- No word holds white space. -/
theorem not_isBlank_of_mem_words {t w : Text} (h : w ∈ words t) : ∀ c ∈ w, isBlank c = false :=
  not_isBlank_of_mem_splitOnP (List.mem_filter.mp h).1

/-- No word is empty. -/
theorem ne_nil_of_mem_words {t w : Text} (h : w ∈ words t) : w ≠ [] := by
  simp only [words, List.mem_filter, Bool.not_eq_true', List.isEmpty_eq_false_iff] at h
  exact h.2

/-- The words with one space between neighbours. -/
def unwords (ws : List Text) : Text := List.intercalate [' '] ws

/-- `needle` stands somewhere in `t`. -/
def contains (t needle : Text) : Bool :=
  match t with
  | [] => needle.isEmpty
  | c :: r => needle.isPrefixOf (c :: r) || contains r needle

/-- What stands before and after the first `needle`. -/
def cutAt? (needle : Text) : Text → Option (Text × Text)
  | [] => if needle.isEmpty then some ([], []) else none
  | c :: r =>
    if needle.isPrefixOf (c :: r) then some ([], (c :: r).drop needle.length)
    else (cutAt? needle r).map fun (before, after) => (c :: before, after)

/-- Replaces every `needle`, from left to right, behind the given number of characters of which the
last one still consists. -/
def replaceFrom (needle new : Text) : (skip : Nat) → Text → Text
  | _, [] => []
  | skip + 1, _ :: r => replaceFrom needle new skip r
  | 0, c :: r =>
    if needle.isPrefixOf (c :: r) then new ++ replaceFrom needle new (needle.length - 1) r
    else c :: replaceFrom needle new 0 r

/-- The text with every `needle`, which is not empty, replaced. -/
def replaceAll (t needle new : Text) : Text := replaceFrom needle new 0 t

/-- The text with every ASCII capital made small. -/
def lower (t : Text) : Text := t.map Char.toLower

/-- A natural number in decimal digits. -/
def ofNat (n : Nat) : Text := Nat.toDigits 10 n

/-- An integer in decimal digits, with a minus sign if it is negative. -/
def ofInt (n : Int) : Text := if n < 0 then '-' :: ofNat n.natAbs else ofNat n.natAbs

/-- A text at least `width` long, filled with zeros in front. -/
def padZero (width : Nat) (t : Text) : Text := List.replicate (width - t.length) '0' ++ t

/-- Filling up never shortens a text. -/
@[simp] theorem length_padZero (width : Nat) (t : Text) :
    (padZero width t).length = max width t.length := by
  simp only [padZero, List.length_append, List.length_replicate]
  omega

/-- Reads one or more ASCII digits as a decimal number. -/
def toNat? (t : Text) : Option Nat :=
  if t.isEmpty || !t.all Char.isDigit then none
  else some (t.foldl (fun n c => 10 * n + (c.toNat - '0'.toNat)) 0)

/-- The largest 64-bit natural number. -/
def maxWord : Nat := 0xFFFFFFFFFFFFFFFF

/-- Reads a 64-bit natural number: an optional plus sign, then ASCII digits. -/
def toWord? (t : Text) : Option UInt64 :=
  let digits := match t with
    | '+' :: r => r
    | r => r
  (toNat? digits).bind fun n => if n ≤ maxWord then some (UInt64.ofNat n) else none

/-- The bytes of the text in UTF-8. -/
def utf8 (t : Text) : List UInt8 := t.flatMap String.utf8EncodeChar

/-- The text that has these bytes in UTF-8. -/
def ofUtf8? (bytes : List UInt8) : Option Text :=
  (String.fromUTF8? bytes.toByteArray).map String.toList

/-- A text is read back from its bytes. -/
@[simp] theorem ofUtf8?_utf8 (t : Text) : ofUtf8? t.utf8 = some t := by
  have hb : t.utf8.toByteArray = t.utf8Encode := rfl
  have hv : t.utf8.toByteArray.IsValidUTF8 := hb ▸ ByteArray.isValidUTF8_utf8Encode
  simp only [ofUtf8?, String.fromUTF8?, hv, dif_pos, Option.map_some, Option.some.injEq]
  change (String.ofList t).toList = t
  simp

/-- Bytes that hold a text are the bytes of that text. -/
theorem utf8_of_ofUtf8? {bytes : List UInt8} {t : Text} (h : ofUtf8? bytes = some t) :
    t.utf8 = bytes := by
  obtain ⟨s, hs, rfl⟩ := Option.map_eq_some_iff.mp h
  rw [String.fromUTF8?] at hs
  split at hs
  · obtain rfl := Option.some.inj hs
    have hb : (Text.utf8 (String.fromUTF8 bytes.toByteArray ‹_›).toList).toByteArray =
        bytes.toByteArray := String.utf8Encode_toList
    simpa using congrArg (fun b : ByteArray => b.data.toList) hb
  · cases hs

/-- The bytes of a text determine it. -/
theorem utf8_inj {t u : Text} (h : t.utf8 = u.utf8) : t = u :=
  Option.some.inj (by rw [← ofUtf8?_utf8 t, h, ofUtf8?_utf8 u])

/-- The number of bytes of the text in UTF-8. -/
def utf8Length (t : Text) : Nat := t.foldl (fun n c => n + c.utf8Size) 0

end Text

end JobSearch
