import JobSearch.Proofs.Text.Search
import JobSearch.Url.Percent

/-!
# Escaped search terms

A search term is escaped as a value, its escaped spaces become plus signs, and a query component
escapes the result once more. What comes out is written byte by byte all the same: the replacement
hits no other escape, because the digits of an escape are no percent signs, and the second pass
changes nothing but apostrophes. So the term is read back from it, whatever characters it has.
-/

namespace JobSearch.Percent

theorem hexValue?_hexDigit {n : Nat} (hn : n < 16) : hexValue? (hexDigit n) = some n := by
  have hall : ∀ n < 16, hexValue? (hexDigit n) = some n := by decide
  exact hall n hn

/-- A capital hexadecimal digit. -/
def IsHexDigit (c : Char) : Prop := c ∈ "0123456789ABCDEF".toList

instance (c : Char) : Decidable (IsHexDigit c) := inferInstanceAs (Decidable (_ ∈ _))

theorem isHexDigit_hexDigit {n : Nat} (hn : n < 16) : IsHexDigit (hexDigit n) := by
  have hall : ∀ n < 16, hexDigit n ∈ "0123456789ABCDEF".toList := by decide
  exact hall n hn

/-- A digit is none of the marks. -/
theorem hexDigit_ne {n : Nat} (hn : n < 16) {c : Char} (hc : ¬ IsHexDigit c) : hexDigit n ≠ c :=
  fun he => hc (he ▸ isHexDigit_hexDigit hn)

theorem div_lt_sixteen (b : UInt8) : b.toNat / 16 < 16 := by
  have hb : b.toNat < 256 := b.toNat_lt
  omega

theorem mod_lt_sixteen (b : UInt8) : b.toNat % 16 < 16 := Nat.mod_lt _ (by decide)

/-- An escape stands for its byte. -/
theorem decode_escape (b : UInt8) (t : Text) : decode (escape b ++ t) = b :: decode t := by
  have hb : 16 * (b.toNat / 16) + b.toNat % 16 = b.toNat := Nat.div_add_mod ..
  have hbyte : byteOf? (hexDigit (b.toNat / 16)) (hexDigit (b.toNat % 16)) = some b := by
    simp only [byteOf?, hexValue?_hexDigit (div_lt_sixteen b),
      hexValue?_hexDigit (mod_lt_sixteen b), Option.pure_def, Option.bind_eq_bind,
      Option.bind_some, hb]
    exact congrArg some UInt8.ofNat_toNat
  simp only [escape, List.cons_append, List.nil_append, decode, hbyte]

/-- A character other than the percent sign stands for its own bytes. -/
theorem decode_cons {c : Char} (hc : c ≠ '%') (t : Text) :
    decode (c :: t) = String.utf8EncodeChar c ++ decode t := by
  rw [decode]
  intro a b r hp
  exact absurd hp hc

theorem utf8EncodeChar_ofNat {b : UInt8} (hb : b < 128) :
    String.utf8EncodeChar (Char.ofNat b.toNat) = [b] := by
  have hall : ∀ n < 128, String.utf8EncodeChar (Char.ofNat n) = [UInt8.ofNat n] := by decide
  rw [hall b.toNat (UInt8.lt_iff_toNat_lt.mp hb), UInt8.ofNat_toNat]

/-- A byte becomes the character of its code if that is kept, and an escape otherwise. -/
theorem encodeByte_cases (keep : Char → Bool) (b : UInt8) :
    (b < 128 ∧ keep (Char.ofNat b.toNat) = true ∧
      encodeByte keep b = [Char.ofNat b.toNat]) ∨
    ¬ (b < 128 ∧ keep (Char.ofNat b.toNat) = true) ∧ encodeByte keep b = escape b := by
  by_cases h : b < 128 ∧ keep (Char.ofNat b.toNat) = true
  · exact Or.inl ⟨h.1, h.2, by simp [encodeByte, h]⟩
  · refine Or.inr ⟨h, ?_⟩
    rw [encodeByte, if_neg (by simpa using h)]

theorem encode_append (keep : Char → Bool) (t u : Text) :
    encode keep (t ++ u) = encode keep t ++ encode keep u := by
  rw [encode, Text.utf8, List.flatMap_append, List.flatMap_append]
  rfl

/-- A character of ASCII is written like the byte of its code. -/
theorem encode_singleton_ofNat (keep : Char → Bool) {b : UInt8} (hb : b < 128) :
    encode keep [Char.ofNat b.toNat] = encodeByte keep b := by
  rw [encode, Text.utf8, List.flatMap_singleton, utf8EncodeChar_ofNat hb, List.flatMap_singleton]

/-- What a byte of a search term becomes in a query component; a special scheme escapes the
apostrophe as well. -/
def termByte (special : Bool) (b : UInt8) : Text :=
  if b = ' '.toUInt8 then ['+']
  else if special && b == '\x27'.toUInt8 then escape b
  else encodeByte keptInTerm b

/-- A byte becomes a plus sign if it is a space, the character of its code if a term keeps that, and
an escape otherwise. -/
theorem termByte_cases (special : Bool) (b : UInt8) :
    (b = ' '.toUInt8 ∧ termByte special b = ['+']) ∨
    (b < 128 ∧ keptInTerm (Char.ofNat b.toNat) = true ∧
      (special = true → Char.ofNat b.toNat ≠ '\x27') ∧
      termByte special b = [Char.ofNat b.toNat]) ∨
    b ≠ ' '.toUInt8 ∧ termByte special b = escape b := by
  by_cases hs : b = ' '.toUInt8
  · exact Or.inl ⟨hs, if_pos hs⟩
  · right
    rw [termByte, if_neg hs]
    by_cases ha : (special && b == '\x27'.toUInt8) = true
    · exact Or.inr ⟨hs, if_pos ha⟩
    · rw [if_neg ha]
      rcases encodeByte_cases keptInTerm b with ⟨hb, hk, he⟩ | ⟨-, he⟩
      · refine Or.inl ⟨hb, hk, fun hsp hc => ha ?_, he⟩
        have hq := utf8EncodeChar_ofNat hb
        rw [hc] at hq
        obtain rfl := (List.cons.inj hq).1
        rw [hsp]
        rfl
      · exact Or.inr ⟨hs, he⟩

/-- A query keeps what a search term keeps, but for the apostrophe under a special scheme. -/
theorem keptInQuery_of_keptInTerm (special : Bool) {b : UInt8} (hb : b < 128)
    (hk : keptInTerm (Char.ofNat b.toNat) = true) :
    keptInQuery special (Char.ofNat b.toNat) = !(special && b == '\x27'.toUInt8) := by
  have hall : ∀ special, ∀ n < 128, keptInTerm (Char.ofNat n) = true →
      keptInQuery special (Char.ofNat n) = !(special && UInt8.ofNat n == '\x27'.toUInt8) := by
    decide
  have h := hall special b.toNat (UInt8.lt_iff_toNat_lt.mp hb) hk
  rwa [UInt8.ofNat_toNat] at h

/-- A query keeps escapes. -/
theorem encode_escape (special : Bool) (b : UInt8) :
    encode (keptInQuery special) (escape b) = escape b := by
  have hpercent : ∀ special, encode (keptInQuery special) ['%'] = ['%'] := by decide
  have hdigit : ∀ special, ∀ n < 16,
      encode (keptInQuery special) [hexDigit n] = [hexDigit n] := by decide
  have hsplit (c d e : Char) : [c, d, e] = [c] ++ [d] ++ [e] := rfl
  rw [escape, hsplit, encode_append, encode_append, hpercent, hdigit _ _ (div_lt_sixteen b),
    hdigit _ _ (mod_lt_sixteen b)]

theorem termByte_false {b : UInt8} (hs : b ≠ ' '.toUInt8) :
    termByte false b = encodeByte keptInTerm b := by
  rw [termByte, if_neg hs, Bool.false_and, if_neg Bool.false_ne_true]

/-- The query component changes nothing but apostrophes. -/
theorem encode_termByte (special : Bool) (b : UInt8) :
    encode (keptInQuery special) (termByte false b) = termByte special b := by
  by_cases hs : b = ' '.toUInt8
  · have hplus : ∀ special, encode (keptInQuery special) ['+'] = ['+'] := by decide
    rw [termByte, termByte, if_pos hs, if_pos hs, hplus]
  · rw [termByte_false hs, termByte, if_neg hs]
    rcases encodeByte_cases keptInTerm b with ⟨hb, hk, he⟩ | ⟨-, he⟩
    · have hq := keptInQuery_of_keptInTerm special hb hk
      rw [he, encode_singleton_ofNat _ hb, encodeByte, hq]
      cases special && b == '\x27'.toUInt8 <;> simp [hb]
    · rw [he, encode_escape, ite_self]

/-- Escaped spaces are replaced byte by byte: an escape holds no second percent sign, and no other
one has the digits of a space. -/
theorem replaceAll_encodeByte (b : UInt8) (t : Text) :
    Text.replaceAll (encodeByte keptInTerm b ++ t) spaceEscape ['+'] =
      termByte false b ++ Text.replaceAll t spaceEscape ['+'] := by
  have hspace : spaceEscape = escape ' '.toUInt8 := by decide
  have hcons {c : Char} (hc : c ≠ '%') (u : Text) :
      Text.replaceAll (c :: u) spaceEscape ['+'] = c :: Text.replaceAll u spaceEscape ['+'] :=
    Text.replaceAll_cons fun hp => hc (List.cons_prefix_cons.mp hp).1.symm
  by_cases hs : b = ' '.toUInt8
  · obtain rfl := hs
    exact Text.replaceAll_append t
  · rw [termByte_false hs]
    rcases encodeByte_cases keptInTerm b with ⟨-, hk, he⟩ | ⟨-, he⟩
    · rw [he, List.singleton_append, List.singleton_append, hcons]
      intro hc
      rw [hc] at hk
      exact absurd hk (by decide)
    · have hp : ¬ spaceEscape <+: escape b ++ t := by
        rintro ⟨u, hu⟩
        have hd := congrArg decode hu
        rw [hspace, decode_escape, decode_escape] at hd
        exact hs (List.cons.inj hd).1.symm
      have hpercent : ¬ IsHexDigit '%' := by decide
      rw [he]
      simp only [escape, List.cons_append, List.nil_append] at hp ⊢
      rw [Text.replaceAll_cons hp, hcons (hexDigit_ne (div_lt_sixteen b) hpercent),
        hcons (hexDigit_ne (mod_lt_sixteen b) hpercent)]

/-- A search term is written byte by byte. -/
theorem encodeTerm_eq_flatMap (t : Text) : encodeTerm t = t.utf8.flatMap (termByte false) := by
  rw [encodeTerm, encode]
  induction t.utf8 with
  | nil => rfl
  | cons b bs ih => rw [List.flatMap_cons, replaceAll_encodeByte, ih, List.flatMap_cons]

/-- The value that a query component holds for a search term, byte by byte. -/
theorem encode_encodeTerm (special : Bool) (t : Text) :
    encode (keptInQuery special) (encodeTerm t) = t.utf8.flatMap (termByte special) := by
  rw [encodeTerm_eq_flatMap]
  induction t.utf8 with
  | nil => rfl
  | cons b bs ih =>
    rw [List.flatMap_cons, encode_append, encode_termByte, ih, List.flatMap_cons]

/-- A value of a query: letters, digits and marks that stand for themselves, plus signs, and escapes
in capital digits. -/
inductive IsTerm : Text → Prop where
  /-- Nothing. -/
  | nil : IsTerm []
  /-- A character that stands for itself, or a plus sign. -/
  | char {c : Char} {t : Text} (hc : c.isAlphanum = true ∨ c ∈ "+-_.!~*'()".toList)
    (ht : IsTerm t) : IsTerm (c :: t)
  /-- An escape. -/
  | escape {c d : Char} {t : Text} (hc : IsHexDigit c) (hd : IsHexDigit d) (ht : IsTerm t) :
    IsTerm ('%' :: c :: d :: t)

/-- The bytes of a value: first a plus sign becomes a space, then an escape becomes its byte. -/
def decodeTerm (t : Text) : List UInt8 := decode (t.map fun c => if c = '+' then ' ' else c)

theorem isTerm_flatMap_termByte (special : Bool) (bs : List UInt8) :
    IsTerm (bs.flatMap (termByte special)) := by
  induction bs with
  | nil => exact .nil
  | cons b bs ih =>
    rw [List.flatMap_cons]
    rcases termByte_cases special b with ⟨-, he⟩ | ⟨-, hk, -, he⟩ | ⟨-, he⟩
    · rw [he]
      exact .char (Or.inr (by decide)) ih
    · rw [he]
      refine .char ?_ ih
      simp only [keptInTerm, Bool.or_eq_true, List.contains_iff_mem] at hk
      exact hk.imp_right fun hm => List.mem_cons_of_mem '+' hm
    · rw [he]
      exact .escape (isHexDigit_hexDigit (div_lt_sixteen b))
        (isHexDigit_hexDigit (mod_lt_sixteen b)) ih

/-- Under a special scheme a value holds no apostrophe. -/
theorem apostrophe_not_mem_flatMap_termByte (bs : List UInt8) :
    '\x27' ∉ bs.flatMap (termByte true) := by
  intro hm
  obtain ⟨b, -, hb⟩ := List.mem_flatMap.mp hm
  rcases termByte_cases true b with ⟨-, he⟩ | ⟨-, -, hne, he⟩ | ⟨-, he⟩
  · rw [he] at hb
    exact absurd hb (by decide)
  · rw [he, List.mem_singleton] at hb
    exact hne rfl hb.symm
  · have hmark : ¬ IsHexDigit '\x27' := by decide
    rw [he, escape, List.mem_cons, List.mem_cons, List.mem_singleton] at hb
    rcases hb with hb | hb | hb
    · exact absurd hb (by decide)
    · exact hexDigit_ne (div_lt_sixteen b) hmark hb.symm
    · exact hexDigit_ne (mod_lt_sixteen b) hmark hb.symm

/-- A byte is read back from what it becomes. -/
theorem decodeTerm_termByte_append (special : Bool) (b : UInt8) (t : Text) :
    decodeTerm (termByte special b ++ t) = b :: decodeTerm t := by
  rw [decodeTerm, List.map_append]
  rcases termByte_cases special b with ⟨hs, he⟩ | ⟨hb, hk, -, he⟩ | ⟨-, he⟩
  · rw [he, hs, List.map_singleton, if_pos rfl, List.singleton_append, decode_cons (by decide)]
    rfl
  · have hne : Char.ofNat b.toNat ≠ '+' ∧ Char.ofNat b.toNat ≠ '%' := by
      constructor <;> intro hc <;> rw [hc] at hk <;> exact absurd hk (by decide)
    rw [he, List.map_singleton, if_neg hne.1, List.singleton_append, decode_cons hne.2,
      utf8EncodeChar_ofNat hb]
    rfl
  · have hplus : ¬ IsHexDigit '+' := by decide
    have hescape : ((escape b).map fun c => if c = '+' then ' ' else c) = escape b := by
      simp only [escape, List.map_cons, List.map_nil, hexDigit_ne (div_lt_sixteen b) hplus,
        hexDigit_ne (mod_lt_sixteen b) hplus, if_false, Char.reduceEq]
    rw [he, hescape, decode_escape]
    rfl

/-- The bytes of a search term are read back. -/
theorem decodeTerm_flatMap_termByte (special : Bool) (bs : List UInt8) :
    decodeTerm (bs.flatMap (termByte special)) = bs := by
  induction bs with
  | nil => rfl
  | cons b bs ih => rw [List.flatMap_cons, decodeTerm_termByte_append, ih]

end JobSearch.Percent
