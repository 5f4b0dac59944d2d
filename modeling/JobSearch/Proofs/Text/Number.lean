import JobSearch.Text.Basic

/-!
# Numbers in decimal digits

A number is written without leading zeros and read back from what is written; a 64-bit number is
read from nothing but digits, perhaps with a plus sign in front. Numbers that are filled up to one
width are ordered as texts like the numbers themselves.
-/

namespace JobSearch.Text

/-- The range of the digits. -/
theorem toNat_of_isDigit {c : Char} (h : c.isDigit = true) : 48 ≤ c.toNat ∧ c.toNat ≤ 57 := by
  simp only [Char.isDigit, Bool.and_eq_true, decide_eq_true_eq, ge_iff_le,
    UInt32.le_iff_toNat_le] at h
  exact h

theorem not_isBlank_of_isDigit {c : Char} (h : c.isDigit = true) : isBlank c = false := by
  have hc := toNat_of_isDigit h
  simp only [isBlank, Bool.or_eq_false_iff, Bool.and_eq_false_iff, decide_eq_false_iff_not,
    beq_eq_false_iff_ne]
  omega

theorem isDigit_of_mem_ofNat {n : Nat} {c : Char} (h : c ∈ ofNat n) : c.isDigit = true :=
  Nat.isDigit_of_mem_toDigits (by decide) (by decide) h

theorem ofNat_ne_nil (n : Nat) : ofNat n ≠ [] := Nat.toDigits_ne_nil

/-- A positive number is written without a leading zero. -/
theorem exists_ofNat_eq_cons {n : Nat} (h : 0 < n) : ∃ c ds, ofNat n = c :: ds ∧ c ≠ '0' := by
  induction n using Nat.strongRecOn with
  | ind n ih =>
    by_cases hn : n < 10
    · refine ⟨n.digitChar, [], Nat.toDigits_of_lt_base hn, ?_⟩
      rw [Ne, Nat.digitChar_eq_zero]
      omega
    · obtain ⟨c, ds, he, hc⟩ := ih (n / 10) (by omega) (by omega)
      refine ⟨c, ds ++ [(n % 10).digitChar], ?_, hc⟩
      rw [ofNat, Nat.toDigits_of_base_le (by decide) (by omega), ← List.cons_append, ← he]
      rfl

/-- A written number is read back. -/
theorem toNat?_ofNat (n : Nat) : toNat? (ofNat n) = some n := by
  have hd : (ofNat n).all Char.isDigit = true :=
    List.all_eq_true.mpr fun c hc => isDigit_of_mem_ofNat hc
  have he : (ofNat n).isEmpty = false := List.isEmpty_eq_false_iff.mpr (ofNat_ne_nil n)
  rw [toNat?, hd, he]
  exact congrArg some Nat.ofDigitChars_ten_toDigits

/-- A written 64-bit number is read back. -/
theorem toWord?_ofNat (n : UInt64) : toWord? (ofNat n.toNat) = some n := by
  have hn : n.toNat ≤ maxWord := Nat.le_of_lt_succ n.toNat_lt
  simp only [toWord?]
  split
  · next r h =>
    have hp : '+' ∈ ofNat n.toNat := h ▸ List.mem_cons_self ..
    exact absurd (isDigit_of_mem_ofNat hp) (by decide)
  · rw [toNat?_ofNat, Option.bind_some, if_pos hn, UInt64.ofNat_toNat]

/-- A number is read exactly from one or more digits, as the decimal number that they spell. -/
theorem toNat?_eq_some_iff {t : Text} {n : Nat} :
    toNat? t = some n ↔
      t ≠ [] ∧ (∀ c ∈ t, c.isDigit = true) ∧ Nat.ofDigitChars 10 t 0 = n := by
  rw [toNat?]
  split
  · next h =>
    rw [Bool.or_eq_true, List.isEmpty_iff, Bool.not_eq_true', List.all_eq_false] at h
    refine ⟨fun hn => (by cases hn), ?_⟩
    rintro ⟨hne, hd, -⟩
    obtain ⟨c, hc, hn⟩ := h.resolve_left hne
    exact absurd (hd c hc) hn
  · next h =>
    rw [Bool.or_eq_true, List.isEmpty_iff, Bool.not_eq_true', not_or, Bool.not_eq_false,
      List.all_eq_true] at h
    exact ⟨fun hn => ⟨h.1, h.2, Option.some.inj hn⟩, fun hn => congrArg some hn.2.2⟩

/-- The text spells a natural number: one or more digits, perhaps behind a plus sign. Zeros in front
count for nothing. -/
def SpellsNumber (t : Text) (n : Nat) : Prop :=
  ∃ digits, (t = digits ∨ t = '+' :: digits) ∧ digits ≠ [] ∧
    (∀ c ∈ digits, c.isDigit = true) ∧ Nat.ofDigitChars 10 digits 0 = n

/-- A 64-bit number is read exactly from the texts that spell it. -/
theorem toWord?_eq_some_iff {t : Text} {n : UInt64} :
    toWord? t = some n ↔ t.SpellsNumber n.toNat := by
  have hword (m : Nat) : (if m ≤ maxWord then some (UInt64.ofNat m) else none) = some n ↔
      m = n.toNat := by
    have hn : n.toNat ≤ maxWord := Nat.le_of_lt_succ n.toNat_lt
    constructor
    · intro h
      split at h
      · next hm =>
        obtain rfl := Option.some.inj h
        exact (UInt64.toNat_ofNat_of_lt' (Nat.lt_succ_of_le hm)).symm
      · cases h
    · rintro rfl
      rw [if_pos hn, UInt64.ofNat_toNat]
  simp only [toWord?]
  split
  · next r =>
    simp only [Option.bind_eq_some_iff, toNat?_eq_some_iff, hword]
    constructor
    · rintro ⟨m, ⟨hne, hd, hv⟩, rfl⟩
      exact ⟨r, Or.inr rfl, hne, hd, hv⟩
    · rintro ⟨digits, rfl | he, hne, hd, hv⟩
      · exact absurd (hd '+' (List.mem_cons_self ..)) (by decide)
      · obtain rfl := (List.cons.inj he).2
        exact ⟨n.toNat, ⟨hne, hd, hv⟩, rfl⟩
  · next hp =>
    simp only [Option.bind_eq_some_iff, toNat?_eq_some_iff, hword]
    constructor
    · rintro ⟨m, ⟨hne, hd, hv⟩, rfl⟩
      exact ⟨t, Or.inl rfl, hne, hd, hv⟩
    · rintro ⟨digits, rfl | he, hne, hd, hv⟩
      · exact ⟨n.toNat, ⟨hne, hd, hv⟩, rfl⟩
      · exact absurd he (hp digits)

/-- A 64-bit number is read from digits as the number that they spell. -/
theorem toWord?_eq_some_iff_of_isDigit {t : Text} (hd : ∀ c ∈ t, c.isDigit = true) {n : UInt64} :
    toWord? t = some n ↔ toNat? t = some n.toNat := by
  rw [toWord?_eq_some_iff, toNat?_eq_some_iff]
  constructor
  · rintro ⟨digits, rfl | rfl, h⟩
    · exact h
    · exact absurd (hd '+' (List.mem_cons_self ..)) (by decide)
  · exact fun h => ⟨t, Or.inl rfl, h⟩

theorem toWord?_of_toNat? {t : Text} {n : Nat} (h : toNat? t = some n)
    (hn : n ≤ maxWord) : toWord? t = some (UInt64.ofNat n) := by
  rw [toWord?_eq_some_iff_of_isDigit (toNat?_eq_some_iff.mp h).2.1,
    UInt64.toNat_ofNat_of_lt' (Nat.lt_succ_of_le hn), h]

/-- A number is read from digits only. -/
theorem isDigit_of_toNat? {t : Text} {n : Nat} (h : toNat? t = some n) {c : Char} (hc : c ∈ t) :
    c.isDigit = true := by
  rw [toNat?] at h
  split at h
  · cases h
  · next hd =>
    simp only [Bool.or_eq_true, Bool.not_eq_true', not_or, Bool.not_eq_false] at hd
    exact List.all_eq_true.mp hd.2 c hc

/-- As many digits bound the number that they spell. -/
theorem lt_pow_of_toNat? {t : Text} {n : Nat} (h : toNat? t = some n) :
    n < Nat.pow 10 t.length := by
  obtain ⟨-, hd, rfl⟩ := toNat?_eq_some_iff.mp h
  clear h
  induction t with
  | nil => exact Nat.one_pos
  | cons c t ih =>
    have hc : c.toNat - '0'.toNat ≤ 9 := by
      have hrange := toNat_of_isDigit (hd c (List.mem_cons_self ..))
      have hzero : '0'.toNat = 48 := rfl
      omega
    have hrest := ih fun d hm => hd d (List.mem_cons_of_mem c hm)
    have hpow : Nat.pow 10 (c :: t).length = Nat.pow 10 t.length * 10 :=
      Nat.pow_succ 10 t.length
    have hmul := Nat.mul_le_mul_left (Nat.pow 10 t.length) hc
    rw [Nat.ofDigitChars_cons, Nat.ofDigitChars_eq_ofDigitChars_zero, hpow, Nat.mul_zero,
      Nat.zero_add]
    change Nat.pow 10 t.length * _ + _ < _
    omega

/-- A 64-bit number is read from digits only, but for a plus sign. -/
theorem eq_plus_or_isDigit_of_toWord? {t : Text} {n : UInt64} (h : toWord? t = some n) {c : Char}
    (hc : c ∈ t) : c = '+' ∨ c.isDigit = true := by
  simp only [toWord?] at h
  obtain ⟨m, hm, -⟩ := Option.bind_eq_some_iff.mp h
  split at hm
  · rcases List.mem_cons.mp hc with hc | hc
    · exact Or.inl hc
    · exact Or.inr (isDigit_of_toNat? hm hc)
  · exact Or.inr (isDigit_of_toNat? hm hc)

/-- Zeros in front of a number do not change it. -/
theorem toNat?_padZero (width n : Nat) : toNat? (padZero width (ofNat n)) = some n := by
  have hd (k : Nat) : (List.replicate k '0' ++ ofNat n).all Char.isDigit = true := by
    simp only [List.all_eq_true, List.mem_append, List.mem_replicate]
    rintro c (⟨-, rfl⟩ | hc)
    · decide
    · exact isDigit_of_mem_ofNat hc
  have hv (k : Nat) : Nat.ofDigitChars 10 (List.replicate k '0' ++ ofNat n) 0 = n := by
    induction k with
    | zero => exact Nat.ofDigitChars_ten_toDigits
    | succ k ih =>
      rw [List.replicate_succ, List.cons_append, Nat.ofDigitChars_cons]
      exact ih
  have he (k : Nat) : (List.replicate k '0' ++ ofNat n).isEmpty = false := by
    rw [List.isEmpty_eq_false_iff]
    exact fun h => ofNat_ne_nil n (List.append_eq_nil_iff.mp h).2
  rw [toNat?, padZero, hd, he]
  exact congrArg some (hv _)

/-- A small number fills up to exactly the width. -/
theorem length_padZero_ofNat {width n : Nat} (hw : 0 < width) (h : n < Nat.pow 10 width) :
    (padZero width (ofNat n)).length = width := by
  rw [length_padZero, ofNat]
  exact Nat.max_eq_left ((Nat.length_toDigits_le_iff (by decide) hw).mpr h)

theorem isDigit_of_mem_padZero {width n : Nat} {c : Char} (h : c ∈ padZero width (ofNat n)) :
    c.isDigit = true := by
  rcases List.mem_append.mp h with h | h
  · rw [(List.mem_replicate.mp h).2]
    decide
  · exact isDigit_of_mem_ofNat h

theorem digitChar_of_isDigit {c : Char} (h : c.isDigit = true) :
    Nat.digitChar (c.toNat - '0'.toNat) = c := by
  have hdigits : ∀ d < 10, Nat.digitChar d = Char.ofNat (48 + d) := by decide
  have hc := toNat_of_isDigit h
  have hzero : '0'.toNat = 48 := rfl
  rw [hdigits _ (by omega), hzero, Nat.add_sub_cancel' hc.1, Char.ofNat_toNat]

/-- Digits that are read behind a positive number stand behind its own digits. -/
theorem ofNat_ofDigitChars {n : Nat} (hn : 0 < n) {ds : Text}
    (hd : ∀ c ∈ ds, c.isDigit = true) : ofNat (Nat.ofDigitChars 10 ds n) = ofNat n ++ ds := by
  induction ds generalizing n with
  | nil => rw [Nat.ofDigitChars_nil, List.append_nil]
  | cons c ds ih =>
    obtain ⟨hc, hd⟩ := List.forall_mem_cons.mp hd
    have hlt : c.toNat - '0'.toNat < 10 := by
      have hrange := toNat_of_isDigit hc
      have hzero : '0'.toNat = 48 := rfl
      omega
    rw [Nat.ofDigitChars_cons, ih (by omega) hd, ofNat,
      ← Nat.toDigits_append_toDigits (by decide) hn hlt, Nat.toDigits_of_lt_base hlt,
      digitChar_of_isDigit hc, List.append_assoc, List.singleton_append, ofNat]

/-- Digits of which the first is no zero are the digits of the number that they spell. -/
theorem ofNat_ofDigitChars_cons {c : Char} {ds : Text} (hd : ∀ d ∈ c :: ds, d.isDigit = true)
    (hc : c ≠ '0') : ofNat (Nat.ofDigitChars 10 (c :: ds) 0) = c :: ds := by
  obtain ⟨hdigit, hd⟩ := List.forall_mem_cons.mp hd
  have hrange := toNat_of_isDigit hdigit
  have hzero : '0'.toNat = 48 := rfl
  have hpos : 0 < c.toNat - '0'.toNat := by
    have hne : c.toNat ≠ '0'.toNat := fun h => hc (Char.toNat_inj.mp h)
    omega
  rw [Nat.ofDigitChars_cons, Nat.mul_zero, Nat.zero_add, ofNat_ofDigitChars hpos hd, ofNat,
    Nat.toDigits_of_lt_base (by omega), digitChar_of_isDigit hdigit, List.singleton_append]

/-- The digits without the zeros in front of them; the last digit stays even if it is a zero. -/
def withoutZeros : Text → Text
  | [] => []
  | [c] => [c]
  | c :: d :: r => if c = '0' then withoutZeros (d :: r) else c :: d :: r

/-- The digits of the number that digits spell are those digits without the zeros in front. -/
theorem ofNat_ofDigitChars_zero {ds : Text} (hne : ds ≠ []) (hd : ∀ c ∈ ds, c.isDigit = true) :
    ofNat (Nat.ofDigitChars 10 ds 0) = withoutZeros ds := by
  induction ds using withoutZeros.induct with
  | case1 => exact absurd rfl hne
  | case2 c =>
    by_cases hc : c = '0'
    · rw [hc]
      rfl
    · exact ofNat_ofDigitChars_cons hd hc
  | case3 d r ih => exact ih (List.cons_ne_nil d r) (List.forall_mem_cons.mp hd).2
  | case4 c d r hc =>
    rw [withoutZeros, if_neg hc]
    exact ofNat_ofDigitChars_cons hd hc

theorem compare_natCast (m n : Nat) : Ord.compare (m : Int) (n : Int) = Ord.compare m n := by
  simp only [Int.compare_eq_ite_lt, Nat.compare_eq_ite_lt, Int.ofNat_lt]

/-- Numbers in one base are compared before their last digits. -/
theorem compare_mul_add {base x y : Int} {r s : Nat} (hr : r < base) (hs : s < base) :
    Ord.compare (base * x + r) (base * y + s) = (Ord.compare x y).then (Ord.compare r s) := by
  have hstep {x y : Int} {r s : Nat} (hr : r < base) (h : x < y) :
      base * x + r < base * y + s := by
    have hmul : base * (x + 1) ≤ base * y := Int.mul_le_mul_of_nonneg_left h (by omega)
    rw [Int.mul_add] at hmul
    omega
  rcases Int.lt_trichotomy x y with h | rfl | h
  · rw [Int.compare_eq_lt.mpr h, Ordering.lt_then, Int.compare_eq_lt]
    exact hstep hr h
  · rw [Std.compare_self, Ordering.eq_then, ← compare_natCast]
    simp only [Int.compare_eq_ite_lt, Int.add_lt_add_iff_left]
  · rw [Int.compare_eq_gt.mpr h, Ordering.gt_then, Int.compare_eq_gt]
    exact hstep hs h

theorem compare_digit {c d : Char} (hc : c.isDigit = true) (hd : d.isDigit = true) (m n : Nat) :
    Ord.compare (10 * m + (c.toNat - '0'.toNat)) (10 * n + (d.toNat - '0'.toNat)) =
      (Ord.compare m n).then (Ord.compare c d) := by
  have hc := toNat_of_isDigit hc
  have hd := toNat_of_isDigit hd
  have hzero : '0'.toNat = 48 := rfl
  have hlt : c < d ↔ c.toNat - '0'.toNat < d.toNat - '0'.toNat := by
    rw [Char.lt_def, UInt32.lt_iff_toNat_lt]
    change c.toNat < d.toNat ↔ _
    omega
  have heq : c = d ↔ c.toNat - '0'.toNat = d.toNat - '0'.toNat := by
    rw [← Char.toNat_inj]
    omega
  have hdigit : Ord.compare c d = Ord.compare (c.toNat - '0'.toNat) (d.toNat - '0'.toNat) := by
    change compareOfLessAndEq c d = compareOfLessAndEq _ _
    simp only [compareOfLessAndEq, hlt, heq]
  rw [← compare_natCast, Int.natCast_add, Int.natCast_mul, Int.natCast_add, Int.natCast_mul,
    compare_mul_add (by omega) (by omega), compare_natCast, hdigit]

/-- Digits of one length are in the order of the numbers that they spell, unless the numbers in
front of them decide. -/
theorem compare_ofDigitChars {x y : Text} (hx : ∀ c ∈ x, c.isDigit = true)
    (hy : ∀ c ∈ y, c.isDigit = true) (hl : x.length = y.length) (m n : Nat) :
    Ord.compare (Nat.ofDigitChars 10 x m) (Nat.ofDigitChars 10 y n) =
      (Ord.compare m n).then (Ord.compare x y) := by
  induction x generalizing y m n with
  | nil =>
    obtain rfl := List.length_eq_zero_iff.mp hl.symm
    rw [Std.compare_self, Ordering.then_eq]
    rfl
  | cons c x ih =>
    cases y with
    | nil => cases hl
    | cons d y =>
      obtain ⟨hc, hx⟩ := List.forall_mem_cons.mp hx
      obtain ⟨hd, hy⟩ := List.forall_mem_cons.mp hy
      rw [Nat.ofDigitChars_cons, Nat.ofDigitChars_cons, ih hx hy (Nat.succ.inj hl),
        compare_digit hc hd, Ordering.then_assoc, List.compare_cons_cons]

/-- Numbers that are filled up to one width are in their order as texts. -/
theorem compare_padZero {width m n : Nat} (hw : 0 < width) (hm : m < Nat.pow 10 width)
    (hn : n < Nat.pow 10 width) :
    Ord.compare (padZero width (ofNat m)) (padZero width (ofNat n)) = Ord.compare m n := by
  obtain ⟨-, hdm, hvm⟩ := toNat?_eq_some_iff.mp (toNat?_padZero width m)
  obtain ⟨-, hdn, hvn⟩ := toNat?_eq_some_iff.mp (toNat?_padZero width n)
  have hlen : (padZero width (ofNat m)).length = (padZero width (ofNat n)).length := by
    rw [length_padZero_ofNat hw hm, length_padZero_ofNat hw hn]
  have h := compare_ofDigitChars hdm hdn hlen 0 0
  rw [hvm, hvn, Std.compare_self, Ordering.eq_then] at h
  exact h.symm

end JobSearch.Text
