import JobSearch.Text.CharClass
import JobSearch.Proofs.Text.Number

/-!
# Runs of word characters

A text is cut into its maximal runs of word characters wherever another character stands. Where a
piece of a text starts and ends at word boundaries, its runs are runs of the whole text.
-/

namespace JobSearch

namespace CharClass

/-- The range lies inside `outer`. -/
def isInside (outer range : Nat × Nat) : Bool := Nat.ble outer.1 range.1 && Nat.ble range.2 outer.2

/-- Takes off the ranges in front that lie inside `outer`. -/
def dropInside (ranges : List (Nat × Nat)) (outer : Nat × Nat) : List (Nat × Nat) :=
  ranges.dropWhile (isInside outer)

/-- Of two sorted lists of ranges one lies inside the other if one walk takes all of it off. -/
theorem exists_outer_of_foldl {outers ranges : List (Nat × Nat)}
    (h : outers.foldl dropInside ranges = []) {r : Nat × Nat} (hr : r ∈ ranges) :
    ∃ s ∈ outers, s.1 ≤ r.1 ∧ r.2 ≤ s.2 := by
  induction outers generalizing ranges with
  | nil =>
    rw [List.foldl_nil] at h
    rw [h] at hr
    cases hr
  | cons s outers ih =>
    rw [← List.takeWhile_append_dropWhile (p := isInside s) (l := ranges), List.mem_append] at hr
    rcases hr with hr | hr
    · have hin := List.all_eq_true.mp List.all_takeWhile r hr
      rw [isInside, Bool.and_eq_true, Nat.ble_eq, Nat.ble_eq] at hin
      exact ⟨s, List.mem_cons_self .., hin⟩
    · obtain ⟨s', hs', hin⟩ := ih h hr
      exact ⟨s', List.mem_cons_of_mem s hs', hin⟩

/-- Every decimal digit is a word character. -/
theorem isWord_of_isDigit {c : Char} (h : isDigit c = true) : isWord c = true := by
  have hall : wordRanges.foldl dropInside digitRanges = [] := by decide +kernel
  rw [isDigit] at h
  rw [isWord]
  split at h
  · next hc =>
    rw [if_pos hc]
    simp [Char.isAlphanum, h]
  · next hc =>
    rw [if_neg hc]
    obtain ⟨r, hr, hn⟩ := List.any_eq_true.mp h
    obtain ⟨s, hs, hlo, hhi⟩ := exists_outer_of_foldl hall hr
    simp only [Bool.and_eq_true, decide_eq_true_eq] at hn
    refine List.any_eq_true.mpr ⟨s, hs, ?_⟩
    simp only [Bool.and_eq_true, decide_eq_true_eq]
    omega

/-- The ranges of the ASCII letters. -/
theorem toNat_of_isAlpha {c : Char} (h : c.isAlpha = true) :
    65 ≤ c.toNat ∧ c.toNat ≤ 90 ∨ 97 ≤ c.toNat ∧ c.toNat ≤ 122 := by
  rcases Bool.or_eq_true_iff.mp h with hu | hl
  · have hu : c.val ≥ 'A'.val ∧ c.val ≤ 'Z'.val := of_decide_eq_true hu
    exact Or.inl ⟨UInt32.le_iff_toNat_le.mp hu.1, UInt32.le_iff_toNat_le.mp hu.2⟩
  · obtain ⟨hlow, hhigh⟩ := Bool.and_eq_true_iff.mp hl
    exact Or.inr ⟨UInt32.le_iff_toNat_le.mp (of_decide_eq_true hlow),
      UInt32.le_iff_toNat_le.mp (of_decide_eq_true hhigh)⟩

/-- The ASCII digits are digits of a script. -/
theorem isDigit_of_ascii {c : Char} (h : c.isDigit = true) : isDigit c = true := by
  have hc := Text.toNat_of_isDigit h
  rw [isDigit, if_pos (by omega), h]

/-- White space is no word character. -/
theorem not_isWord_of_isBlank {c : Char} (h : Text.isBlank c = true) : isWord c = false := by
  have hall : ∀ n ∈ [9, 10, 11, 12, 13, 0x20, 0x85, 0xA0, 0x1680, 0x2000, 0x2001, 0x2002, 0x2003,
      0x2004, 0x2005, 0x2006, 0x2007, 0x2008, 0x2009, 0x200A, 0x2028, 0x2029, 0x202F, 0x205F,
      0x3000], isWord (Char.ofNat n) = false := by decide +kernel
  rw [← Char.ofNat_toNat c]
  refine hall c.toNat ?_
  simp only [Text.isBlank, Bool.or_eq_true, Bool.and_eq_true, decide_eq_true_eq, beq_iff_eq] at h
  simp only [List.mem_cons, List.not_mem_nil, or_false]
  omega

end CharClass

namespace Text

open CharClass

theorem not_isWord_of_isAllBlank {t : Text} (h : t.isAllBlank = true) :
    ∀ c ∈ t, isWord c = false :=
  fun c hc => not_isWord_of_isBlank (List.all_eq_true.mp h c hc)

/-- One word character or more. -/
def IsRun (w : Text) : Prop := w ≠ [] ∧ ∀ c ∈ w, isWord c = true

instance (w : Text) : Decidable (IsRun w) :=
  decidable_of_iff (w ≠ [] ∧ w.all isWord = true) (by simp only [IsRun, List.all_eq_true])

/-- One character or more that are no word characters. -/
def IsGap (g : Text) : Prop := g ≠ [] ∧ ∀ c ∈ g, isWord c = false

instance (g : Text) : Decidable (IsGap g) :=
  decidable_of_iff (g ≠ [] ∧ g.all (fun c => !isWord c) = true) (by
    simp only [IsGap, List.all_eq_true, Bool.not_eq_true'])

/-- The text starts with a word character. -/
def startsWord (t : Text) : Bool := (t.head?.map isWord).getD false

theorem startsWord_append {a : Text} (ha : a ≠ []) (b : Text) :
    startsWord (a ++ b) = startsWord a := by
  obtain ⟨c, a, rfl⟩ := List.exists_cons_of_ne_nil ha
  rfl

/-- The maximal runs of word characters, in order. -/
def runs (t : Text) : List Text := (t.splitOnP fun c => !isWord c).filter fun w => !w.isEmpty

@[simp] theorem runs_nil : runs [] = [] := rfl

/-- A character that is no word character separates runs. -/
theorem runs_append_cons {c : Char} (hc : isWord c = false) (a b : Text) :
    runs (a ++ c :: b) = runs a ++ runs b := by
  rw [runs, List.splitOnP_append_cons a b (by simp [hc]), List.filter_append]
  rfl

theorem runs_cons {c : Char} (hc : isWord c = false) (b : Text) : runs (c :: b) = runs b :=
  runs_append_cons hc [] b

/-- A gap separates runs. -/
theorem runs_append_gap {g : Text} (hg : IsGap g) (a b : Text) :
    runs (a ++ g ++ b) = runs a ++ runs b := by
  obtain ⟨hne, hg⟩ := hg
  obtain ⟨c, g, rfl⟩ := List.exists_cons_of_ne_nil hne
  have hrest : runs (g ++ b) = runs b := by
    induction g with
    | nil => rfl
    | cons d g ih =>
      rw [List.cons_append, runs_cons (hg d (by simp))]
      exact ih (by simp) fun e he => hg e (by
        rcases List.mem_cons.mp he with rfl | he <;> simp [*])
  rw [List.append_assoc, List.cons_append, runs_append_cons (hg c (List.mem_cons_self ..)), hrest]

theorem runs_of_isRun {w : Text} (hw : IsRun w) : runs w = [w] := by
  rw [runs, List.splitOnP_eq_singleton (by simpa using hw.2)]
  simp [hw.1]

/-- What does not start with a word character adds its own runs only. -/
theorem runs_append {b : Text} (hb : startsWord b = false) (a : Text) :
    runs (a ++ b) = runs a ++ runs b := by
  cases b with
  | nil => rw [List.append_nil, runs_nil, List.append_nil]
  | cons c b =>
    have hc : isWord c = false := hb
    rw [runs_append_cons hc, runs_cons hc]

/-- The text ends with a word character. -/
def endsWord (t : Text) : Bool := (t.getLast?.map isWord).getD false

theorem endsWord_append {b : Text} (hb : b ≠ []) (a : Text) : endsWord (a ++ b) = endsWord b := by
  obtain ⟨c, hc⟩ := Option.ne_none_iff_exists'.mp (mt List.getLast?_eq_none_iff.mp hb)
  rw [endsWord, endsWord, List.getLast?_append, hc, Option.some_or]

/-- Where no word character stands, none is the last. -/
theorem endsWord_eq_false {g : Text} (h : ∀ c ∈ g, isWord c = false) : endsWord g = false := by
  rw [endsWord]
  cases hl : g.getLast? with
  | none => rfl
  | some c => exact h c (List.mem_of_getLast? hl)

/-- Where no word character follows, only the text itself may start with one. -/
theorem startsWord_append_gap {g : Text} (h : ∀ c ∈ g, isWord c = false) (t : Text) :
    startsWord (t ++ g) = startsWord t := by
  cases t with
  | nil =>
    cases g with
    | nil => rfl
    | cons c g => exact h c (List.mem_cons_self ..)
  | cons c t => rfl

/-- A text that ends with a word character ends in front of a gap that it does not reach across. -/
theorem exists_eq_of_append_gap {base gap a t u : Text} (hgap : ∀ c ∈ gap, isWord c = false)
    (h : base ++ gap = a ++ (t ++ u)) (ht : endsWord t = true) :
    ∃ v, base = a ++ (t ++ v) ∧ u = v ++ gap := by
  rw [← List.append_assoc] at h
  rcases List.append_eq_append_iff.mp h with ⟨v, hat, hg⟩ | ⟨v, hb, hu⟩
  · by_cases hne : v = []
    · rw [hne, List.append_nil] at hat
      exact ⟨[], by rw [← hat, List.append_nil], by simp [hg, hne]⟩
    · have htne : t ≠ [] := by
        rintro rfl
        cases ht
      have hvw : endsWord v = false :=
        endsWord_eq_false fun c hc => hgap c (hg ▸ List.mem_append_left u hc)
      rw [← endsWord_append htne a, hat, endsWord_append hne, hvw] at ht
      cases ht
  · exact ⟨v, by rw [hb, List.append_assoc], hu⟩

/-- What does not end with a word character adds its own runs only. -/
theorem runs_append_of_not_endsWord {a : Text} (ha : endsWord a = false) (b : Text) :
    runs (a ++ b) = runs a ++ runs b := by
  rcases List.eq_nil_or_concat a with rfl | ⟨a, c, rfl⟩
  · rfl
  · have hc : isWord c = false := by simpa [endsWord] using ha
    rw [List.concat_eq_append, List.append_assoc, List.singleton_append, runs_append_cons hc,
      runs_append_cons hc, runs_nil, List.append_nil]

/-- A text that starts with a word character has a run. -/
theorem runs_ne_nil {t : Text} (h : startsWord t = true) : runs t ≠ [] := by
  have hd : startsWord (t.dropWhile isWord) = false := by
    cases hr : t.dropWhile isWord with
    | nil => rfl
    | cons c r =>
      have hc := List.head?_dropWhile_not isWord t
      rw [hr] at hc
      simpa [startsWord] using hc
  have hw : IsRun (t.takeWhile isWord) := by
    refine ⟨?_, fun c hc => List.all_eq_true.mp List.all_takeWhile c hc⟩
    cases t with
    | nil => cases h
    | cons c r => simp [List.takeWhile_cons_of_pos (p := isWord) (a := c) h]
  rw [← List.takeWhile_append_dropWhile (p := isWord) (l := t), runs_append hd, runs_of_isRun hw]
  exact List.cons_ne_nil _ _

/-- The first run of a text is one of a part that starts it and does not end inside the run. -/
theorem mem_runs_of_append {a b w : Text} {ws : List Text} (ha : startsWord a = true)
    (hb : startsWord b = false) (h : runs (a ++ b) = w :: ws) : w ∈ runs a := by
  rw [runs_append hb] at h
  obtain ⟨v, vs, hv⟩ := List.exists_cons_of_ne_nil (runs_ne_nil ha)
  rw [hv, List.cons_append, List.cons.injEq] at h
  rw [hv, ← h.1]
  exact List.mem_cons_self ..

/-- The text is made of these runs, one after the other, with a gap between neighbours. -/
inductive Spaced : List Text → Text → Prop where
  /-- One run alone. -/
  | single {w : Text} (hw : IsRun w) : Spaced [w] w
  /-- A run, a gap and more runs. -/
  | cons {w g t : Text} {ws : List Text} (hw : IsRun w) (hg : IsGap g) (h : Spaced ws t) :
    Spaced (w :: ws) (w ++ g ++ t)

namespace Spaced

variable {ws : List Text} {t : Text}

theorem runs_eq (h : Spaced ws t) : runs t = ws := by
  induction h with
  | single hw => exact runs_of_isRun hw
  | cons hw hg h ih => rw [runs_append_gap hg, runs_of_isRun hw, ih, List.singleton_append]

/-- The first character is a word character. -/
theorem startsWord (h : Spaced ws t) : startsWord t = true := by
  have hrun {w : Text} (hw : IsRun w) : Text.startsWord w = true := by
    obtain ⟨c, w, rfl⟩ := List.exists_cons_of_ne_nil hw.1
    exact hw.2 c (List.mem_cons_self ..)
  cases h with
  | single hw => exact hrun hw
  | cons hw hg h => rw [List.append_assoc, startsWord_append hw.1, hrun hw]

theorem ne_nil (h : Spaced ws t) : t ≠ [] := by
  rintro rfl
  cases h.startsWord

/-- The last character is a word character. -/
theorem endsWord (h : Spaced ws t) : endsWord t = true := by
  induction h with
  | single hw =>
    rw [Text.endsWord, List.getLast?_eq_some_getLast hw.1]
    exact hw.2 _ (List.getLast_mem hw.1)
  | cons hw hg h ih => rw [endsWord_append h.ne_nil, ih]

end Spaced

end Text

end JobSearch
