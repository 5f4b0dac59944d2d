import JobSearch.Json.Scan
import JobSearch.Json.Value
import JobSearch.Proofs.Text.Number

/-!
# Written scalars are read back

A string is read back from its quoted text, whatever characters it holds and whatever follows. A
natural number has no mark at its end, so it is read back from its digits where nothing follows
that could go on with a number.
-/

namespace JobSearch.Json

/-- The code of a control character is read from its four digits. -/
theorem hexCode_control {n : Nat} (hn : n < 32) (r : Text) :
    hexCode ('0' :: '0' :: Nat.digitChar (n / 16) :: Nat.digitChar (n % 16) :: r) = .ok (n, r) := by
  have hdigits : ∀ n < 32, Text.utf8Length
      ['0', '0', Nat.digitChar (n / 16), Nat.digitChar (n % 16)] = 4 ∧
      ['0', '0', Nat.digitChar (n / 16), Nat.digitChar (n % 16)].mapM hexDigit? =
        some [0, 0, n / 16, n % 16] := by decide
  obtain ⟨hl, hm⟩ := hdigits n hn
  simp only [hexCode, List.take_succ_cons, List.take_zero, hl, Nat.lt_irrefl, if_false, hm,
    List.foldl_cons, List.foldl_nil, List.drop_succ_cons, List.drop_zero, Except.ok.injEq,
    Prod.mk.injEq, and_true]
  omega

/-- A written character is read as that character. -/
theorem stringContent_escapeChar (fuel : Nat) (c : Char) (r : Text) :
    stringContent (fuel + 1) (escapeChar c ++ r) =
      (stringContent fuel r).map fun p => (c :: p.1, p.2) := by
  unfold escapeChar
  split
  case h_8 =>
    split
    · next hc =>
      have hs : isLowSurrogate c.toNat = false ∧ isHighSurrogate c.toNat = false := by
        simp only [isLowSurrogate, isHighSurrogate, Bool.and_eq_false_iff, decide_eq_false_iff_not]
        omega
      simp only [List.cons_append, List.nil_append, stringContent, Char.reduceEq, if_false, if_true,
        escaped, unicodeEscape, hexCode_control hc, hs, Bool.false_eq_true, Bool.not_false,
        Char.ofNat_toNat]
    · next hc =>
      have hq : c ≠ '"' ∧ c ≠ '\\' := by grind
      simp only [List.cons_append, List.nil_append, stringContent, hq, hc, if_false]
  all_goals rfl

/-- The characters of a string are read up to its closing quote. -/
theorem stringContent_flatMap {fuel : Nat} {t : Text} (hf : t.length < fuel) (r : Text) :
    stringContent fuel (t.flatMap escapeChar ++ '"' :: r) = .ok (t, r) := by
  induction t generalizing fuel with
  | nil =>
    obtain ⟨fuel, rfl⟩ := Nat.exists_eq_add_of_lt hf
    rfl
  | cons c t ih =>
    cases fuel with
    | zero => cases hf
    | succ fuel =>
      rw [List.flatMap_cons, List.append_assoc, stringContent_escapeChar,
        ih (Nat.lt_of_succ_lt_succ hf)]
      rfl

theorem length_le_length_flatMap_escapeChar (t : Text) :
    t.length ≤ (t.flatMap escapeChar).length := by
  rw [List.length_flatMap]
  induction t with
  | nil => exact Nat.le_refl 0
  | cons c t ih =>
    have hc : 1 ≤ (escapeChar c).length := by
      unfold escapeChar
      split
      case h_8 => split <;> exact Nat.succ_pos _
      all_goals exact Nat.succ_pos _
    simp only [List.map_cons, List.sum_cons, List.length_cons]
    omega

/-- A string is read back from its quoted text. -/
theorem string_flatMap (t r : Text) : string (t.flatMap escapeChar ++ '"' :: r) = .ok (t, r) := by
  have hl := length_le_length_flatMap_escapeChar t
  refine stringContent_flatMap ?_ r
  rw [List.length_append]
  omega

/-- What follows a number cannot go on with it. -/
def EndsNumber (r : Text) : Prop :=
  ∀ c ∈ r.head?, c.isDigit = false ∧ c ≠ '.' ∧ c ≠ 'e' ∧ c ≠ 'E'

theorem startsWithDigit_of_endsNumber {r : Text} (hr : EndsNumber r) :
    startsWithDigit r = false := by
  cases r with
  | nil => rfl
  | cons c r => exact (hr c rfl).1

theorem afterWhole_of_endsNumber {r : Text} (hr : EndsNumber r) (n : Nat) :
    afterWhole false n r = .ok (.natural (UInt64.ofNat n), r) := by
  unfold afterWhole
  split
  · exact absurd rfl (hr _ rfl).2.1
  · exact absurd rfl (hr _ rfl).2.2.1
  · exact absurd rfl (hr _ rfl).2.2.2
  · rfl

/-- Digits are taken to their end where their number fits 64 bits. -/
theorem takeDigits_append {ds r : Text} (hd : ∀ c ∈ ds, c.isDigit = true) (hr : EndsNumber r)
    {n : Nat} (hm : Nat.ofDigitChars 10 ds n ≤ Text.maxWord) :
    takeDigits n (ds ++ r) = (Nat.ofDigitChars 10 ds n, ds.length, r) := by
  induction ds generalizing n with
  | nil =>
    cases r with
    | nil => rfl
    | cons c r => simp [takeDigits, (hr c rfl).1]
  | cons c ds ih =>
    have hc := hd c (List.mem_cons_self ..)
    rw [Nat.ofDigitChars_cons] at hm ⊢
    have hle : 10 * n + digitValue c ≤ Text.maxWord := by
      rw [Nat.ofDigitChars_eq_ofDigitChars_zero] at hm
      have hpow : 1 ≤ 10 ^ ds.length := Nat.one_le_pow _ _ (by decide)
      have hmul := Nat.mul_le_mul_right (10 * n + digitValue c) hpow
      simp only [digitValue] at hmul ⊢
      omega
    have hrest := ih (fun d hm => hd d (List.mem_cons_of_mem c hm)) hm
    rw [List.cons_append, takeDigits, if_pos (by simp [hc, hle])]
    simp only [digitValue, hrest, List.length_cons]

/-- A natural number of 64 bits is read back from its digits. -/
theorem number_ofNat (n : UInt64) {r : Text} (hr : EndsNumber r) :
    number false (Text.ofNat n.toNat ++ r) = .ok (.natural n, r) := by
  have hs := startsWithDigit_of_endsNumber hr
  by_cases hz : n.toNat = 0
  · have hn : UInt64.ofNat 0 = n := by rw [← hz, UInt64.ofNat_toNat]
    rw [hz, Text.ofNat, Nat.toDigits_zero, List.singleton_append, number, hs,
      afterWhole_of_endsNumber hr, hn]
    rfl
  · obtain ⟨c, ds, he, hc⟩ := Text.exists_ofNat_eq_cons (Nat.pos_of_ne_zero hz)
    have hd : ∀ d ∈ c :: ds, d.isDigit = true := fun d hm => Text.isDigit_of_mem_ofNat (he ▸ hm)
    have hv : Nat.ofDigitChars 10 ds (digitValue c) = n.toNat := by
      have ho : Nat.ofDigitChars 10 (c :: ds) 0 = n.toNat := by
        rw [← he]
        exact Nat.ofDigitChars_ten_toDigits
      simpa only [Nat.ofDigitChars_cons, Nat.mul_zero, Nat.zero_add, digitValue] using ho
    have ht := takeDigits_append (fun d hm => hd d (List.mem_cons_of_mem c hm)) hr
      (hv ▸ Nat.le_of_lt_succ n.toNat_lt)
    rw [he, List.cons_append]
    unfold number
    split
    · next h => cases h
    · next h => exact absurd (List.cons.inj h).1 hc
    · next h =>
      obtain ⟨rfl, rfl⟩ := List.cons.inj h
      simp only [hd c (List.mem_cons_self ..), Bool.not_true, Bool.false_eq_true, if_false, ht, hv,
        hs, afterWhole_of_endsNumber hr, UInt64.ofNat_toNat]

end JobSearch.Json
