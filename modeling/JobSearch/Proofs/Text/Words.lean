import JobSearch.Text.Basic

/-!
# Words and white space

White space only separates words: cutting a text at white space cuts its list of words, and neither
trimming nor joining with spaces changes a word. A text without white space is one word, so words
joined with spaces are read back one by one.
-/

namespace JobSearch.Text

/-- A word: at least one character, and no white space. -/
def IsWord (w : Text) : Prop := w ≠ [] ∧ ∀ c ∈ w, isBlank c = false

instance (w : Text) : Decidable (IsWord w) :=
  decidable_of_iff (w ≠ [] ∧ w.all (fun c => !isBlank c) = true) (by
    simp only [IsWord, List.all_eq_true, Bool.not_eq_true'])

/-- A word stays one when characters other than white space are added. -/
theorem IsWord.append {w t : Text} (hw : IsWord w) (ht : ∀ c ∈ t, isBlank c = false) :
    IsWord (w ++ t) := by
  refine ⟨fun he => hw.1 (List.append_eq_nil_iff.mp he).1, fun c hc => ?_⟩
  exact (List.mem_append.mp hc).elim (hw.2 c) (ht c)

/-- The words of a text are words. -/
theorem isWord_of_mem_words {t w : Text} (h : w ∈ words t) : IsWord w :=
  ⟨ne_nil_of_mem_words h, not_isBlank_of_mem_words h⟩

@[simp] theorem words_nil : words [] = [] := rfl

/-- White space separates the words in front of it from those behind it. -/
theorem words_append_cons {c : Char} (hc : isBlank c = true) (a b : Text) :
    words (a ++ c :: b) = words a ++ words b := by
  rw [words, List.splitOnP_append_cons a b hc, List.filter_append]
  rfl

/-- White space in front belongs to no word. -/
theorem words_cons {c : Char} (hc : isBlank c = true) (t : Text) : words (c :: t) = words t := by
  simpa only [List.nil_append, words_nil] using words_append_cons hc [] t

/-- White space at the end belongs to no word. -/
theorem words_append_blank {b : Text} (hb : b.isAllBlank = true) (a : Text) :
    words (a ++ b) = words a := by
  induction b generalizing a with
  | nil => rw [List.append_nil]
  | cons c b ih =>
    simp only [isAllBlank, List.all_cons, Bool.and_eq_true] at hb
    rw [words_append_cons hb.1]
    have ht : words b = [] := by simpa only [List.nil_append, words_nil] using ih hb.2 []
    rw [ht, List.append_nil]

/-- A text without white space is one word, unless it is empty. -/
theorem words_of_isWord {w : Text} (h : IsWord w) : words w = [w] := by
  rw [words, List.splitOnP_eq_singleton h.2]
  simp only [List.filter_cons, List.filter_nil, ite_eq_left_iff]
  simp [h.1]

/-- A word is not all white space. -/
theorem IsWord.not_isAllBlank {w : Text} (h : IsWord w) : w.isAllBlank = false := by
  obtain ⟨c, hc⟩ := List.exists_mem_of_ne_nil w h.1
  rw [isAllBlank, List.all_eq_false]
  exact ⟨c, hc, by simp [h.2 c hc]⟩

/-- Only white space is trimmed at the end. -/
theorem exists_eq_trimEnd_append (t : Text) : ∃ b, b.isAllBlank = true ∧ t = t.trimEnd ++ b := by
  refine ⟨(t.reverse.takeWhile isBlank).reverse, ?_, ?_⟩
  · simp only [isAllBlank, List.all_reverse, List.all_takeWhile]
  · rw [trimEnd, ← List.reverse_append, List.takeWhile_append_dropWhile, List.reverse_reverse]

/-- Only white space is trimmed on both sides. -/
theorem exists_eq_append_trim (t : Text) :
    ∃ a b, a.isAllBlank = true ∧ b.isAllBlank = true ∧ t = a ++ (t.trim ++ b) := by
  obtain ⟨b, hb, ht⟩ := exists_eq_trimEnd_append t.trimStart
  refine ⟨t.takeWhile isBlank, b, List.all_takeWhile, hb, ?_⟩
  rw [trim, ← ht, trimStart, List.takeWhile_append_dropWhile]

theorem words_trimEnd (t : Text) : words t.trimEnd = words t := by
  obtain ⟨b, hb, ht⟩ := exists_eq_trimEnd_append t
  rw [← words_append_blank hb t.trimEnd, ← ht]

theorem words_trimStart (t : Text) : words t.trimStart = words t := by
  induction t with
  | nil => rfl
  | cons c t ih =>
    by_cases hc : isBlank c = true
    · rw [words_cons hc, ← ih, trimStart, trimStart, List.dropWhile_cons_of_pos hc]
    · rw [trimStart, List.dropWhile_cons_of_neg hc]

/-- Trimming changes no word. -/
@[simp] theorem words_trim (t : Text) : words t.trim = words t := by
  rw [trim, words_trimEnd, words_trimStart]

/-- A text that ends without white space has nothing to trim at the end. -/
theorem trimEnd_append_singleton {c : Char} (hc : isBlank c = false) (t : Text) :
    trimEnd (t ++ [c]) = t ++ [c] := by
  rw [trimEnd, List.reverse_append, List.reverse_singleton, List.singleton_append,
    List.dropWhile_cons_of_neg (by simp [hc]), List.reverse_cons, List.reverse_reverse]

@[simp] theorem unwords_singleton (w : Text) : unwords [w] = w := List.intercalate_singleton

theorem unwords_cons_cons (v w : Text) (ws : List Text) :
    unwords (v :: w :: ws) = v ++ ' ' :: unwords (w :: ws) := by
  rw [unwords, List.intercalate_cons_cons, List.append_assoc, List.singleton_append, unwords]

/-- Adding a text at the end of a list of texts that is not empty. -/
theorem unwords_append_singleton {ws : List Text} (hne : ws ≠ []) (w : Text) :
    unwords (ws ++ [w]) = unwords ws ++ ' ' :: w := by
  induction ws with
  | nil => exact absurd rfl hne
  | cons v ws ih =>
    cases ws with
    | nil => rw [List.singleton_append, unwords_cons_cons, unwords_singleton, unwords_singleton]
    | cons u ws =>
      rw [List.cons_append, List.cons_append, unwords_cons_cons, ← List.cons_append,
        ih (List.cons_ne_nil u ws), unwords_cons_cons, List.append_assoc, List.cons_append]

/-- Joining texts with spaces neither merges nor splits their words. -/
theorem words_unwords (ts : List Text) : words (unwords ts) = ts.flatMap words := by
  induction ts with
  | nil => rfl
  | cons t ts ih =>
    cases ts with
    | nil => rw [unwords_singleton, List.flatMap_singleton]
    | cons u us => rw [unwords_cons_cons, words_append_cons rfl, ih, ← List.flatMap_cons]

/-- Words that are joined with spaces are read back one by one. -/
theorem words_unwords_of_isWord {ws : List Text} (h : ∀ w ∈ ws, IsWord w) :
    words (unwords ws) = ws := by
  rw [words_unwords]
  induction ws with
  | nil => rfl
  | cons w ws ih =>
    rw [List.flatMap_cons, words_of_isWord (h w (List.mem_cons_self ..)),
      ih fun v hv => h v (List.mem_cons_of_mem _ hv), List.singleton_append]

/-- Words that are joined with spaces end with the last character of a word. -/
theorem exists_unwords_eq_append_singleton {ws : List Text} (hne : ws ≠ [])
    (h : ∀ w ∈ ws, IsWord w) : ∃ a c, unwords ws = a ++ [c] ∧ isBlank c = false := by
  obtain ⟨vs, w, rfl⟩ := (List.eq_nil_or_concat ws).resolve_left hne
  rw [List.concat_eq_append] at h ⊢
  have hw := h w (by simp)
  obtain ⟨a, c, rfl⟩ := (List.eq_nil_or_concat w).resolve_left hw.1
  rw [List.concat_eq_append] at hw ⊢
  have hc := hw.2 c (by simp)
  by_cases hv : vs = []
  · rw [hv, List.nil_append, unwords_singleton]
    exact ⟨a, c, rfl, hc⟩
  · rw [unwords_append_singleton hv, ← List.cons_append, ← List.append_assoc]
    exact ⟨_, c, rfl, hc⟩

/-- Words that are joined with spaces are not all white space. -/
theorem not_isAllBlank_unwords {ws : List Text} (hne : ws ≠ []) (h : ∀ w ∈ ws, IsWord w) :
    (unwords ws).isAllBlank = false := by
  obtain ⟨a, c, he, hc⟩ := exists_unwords_eq_append_singleton hne h
  rw [isAllBlank, List.all_eq_false]
  exact ⟨c, by simp [he], by simp [hc]⟩

/-- Words that are joined with spaces have nothing to trim. -/
theorem trim_unwords {ws : List Text} (h : ∀ w ∈ ws, IsWord w) :
    trim (unwords ws) = unwords ws := by
  cases ws with
  | nil => rfl
  | cons w ws =>
    have hstart : trimStart (unwords (w :: ws)) = unwords (w :: ws) := by
      have hw := h w (List.mem_cons_self ..)
      obtain ⟨c, r, rfl⟩ := List.exists_cons_of_ne_nil hw.1
      obtain ⟨t, ht⟩ : ∃ t, unwords ((c :: r) :: ws) = c :: t := by
        cases ws with
        | nil => exact ⟨r, unwords_singleton _⟩
        | cons v ws => exact ⟨r ++ ' ' :: unwords (v :: ws), unwords_cons_cons ..⟩
      have hc := hw.2 c (List.mem_cons_self ..)
      rw [ht, trimStart, List.dropWhile_cons_of_neg (by simp [hc])]
    obtain ⟨a, c, he, hc⟩ := exists_unwords_eq_append_singleton (List.cons_ne_nil w ws) h
    rw [trim, hstart, he, trimEnd_append_singleton hc]

/-- Every text is a run of characters that are not white space, or such a run, then white space,
then a text. -/
theorem induction_on_runs {P : Text → Prop} (run : ∀ w, (∀ c ∈ w, isBlank c = false) → P w)
    (cut : ∀ w c r, (∀ d ∈ w, isBlank d = false) → isBlank c = true → P r → P (w ++ c :: r))
    (t : Text) : P t := by
  have key : ∀ w, (∀ c ∈ w, isBlank c = false) → P (w ++ t) := by
    induction t with
    | nil => exact fun w hw => (List.append_nil w).symm ▸ run w hw
    | cons c r ih =>
      intro w hw
      by_cases hc : isBlank c = true
      · exact cut w c r hw hc (ih [] (by simp))
      · rw [List.append_cons]
        refine ih (w ++ [c]) fun d hd => ?_
        rcases List.mem_append.mp hd with hd | hd
        · exact hw d hd
        · rw [List.mem_singleton.mp hd]
          simpa only [Bool.not_eq_true] using hc
  exact key [] (by simp)

/-- What stands in a text without one of its characters stands on one side of that character. -/
theorem isInfix_or_isInfix_of_not_mem {n a b : Text} {c : Char} (hc : c ∉ n)
    (h : n <:+: a ++ c :: b) : n <:+: a ∨ n <:+: b := by
  induction a with
  | nil =>
    rcases List.infix_cons_iff.mp h with h | h
    · cases n with
      | nil => exact Or.inl List.nil_infix
      | cons d n =>
        obtain ⟨rfl, -⟩ := List.cons_prefix_cons.mp h
        exact absurd (List.mem_cons_self ..) hc
    · exact Or.inr h
  | cons d a ih =>
    rcases List.infix_cons_iff.mp h with h | h
    · have hd : d :: a ++ [c] <+: d :: (a ++ c :: b) := by simp
      refine Or.inl ?_
      rcases List.prefix_or_prefix_of_prefix h hd with h | h
      · rcases List.prefix_concat_iff.mp h with h | h
        · exact absurd (by simp [h]) hc
        · exact h.isInfix
      · exact absurd (h.subset (by simp)) hc
    · exact (ih h).imp_left List.infix_cons

/-- A word that stands in a text stands in one of its words. -/
theorem exists_mem_words_of_isInfix {n t : Text} (hn : IsWord n) (h : n <:+: t) :
    ∃ w ∈ words t, n <:+: w := by
  induction t using induction_on_runs with
  | run w hw =>
    have hne : w ≠ [] := fun he => hn.1 (List.infix_nil.mp (he ▸ h))
    exact ⟨w, by simp [words_of_isWord ⟨hne, hw⟩], h⟩
  | cut w c r hw hc ih =>
    have hcn : c ∉ n := fun hm => by simp [hn.2 c hm] at hc
    rw [words_append_cons hc]
    rcases isInfix_or_isInfix_of_not_mem hcn h with h | h
    · have hne : w ≠ [] := fun he => hn.1 (List.infix_nil.mp (he ▸ h))
      exact ⟨w, by simp [words_of_isWord ⟨hne, hw⟩], h⟩
    · obtain ⟨v, hv, hi⟩ := ih h
      exact ⟨v, List.mem_append_right _ hv, hi⟩

/-- The words of a text stand in it. -/
theorem isInfix_of_mem_words {t w : Text} (h : w ∈ words t) : w <:+: t := by
  induction t using induction_on_runs with
  | run v hv =>
    by_cases hne : v = []
    · simp [hne] at h
    · rw [words_of_isWord ⟨hne, hv⟩, List.mem_singleton] at h
      exact h ▸ List.infix_rfl
  | cut v c r hv hc ih =>
    rw [words_append_cons hc, List.mem_append] at h
    rcases h with h | h
    · by_cases hne : v = []
      · simp [hne] at h
      · rw [words_of_isWord ⟨hne, hv⟩, List.mem_singleton] at h
        exact h ▸ List.infix_append_left
    · exact List.infix_append_of_infix_right (List.infix_cons (ih h))

/-- A word at the start of a text starts one of the words of that text. -/
theorem exists_mem_words_of_prefix {n : Text} (hn : IsWord n) (b : Text) :
    ∃ w ∈ words (n ++ b), n <+: w := by
  induction b using induction_on_runs with
  | run w hw =>
    rw [words_of_isWord (hn.append hw)]
    exact ⟨_, List.mem_singleton_self _, List.prefix_append n w⟩
  | cut w c r hw hc ih =>
    rw [← List.append_assoc, words_append_cons hc, words_of_isWord (hn.append hw)]
    exact ⟨_, List.mem_append_left _ (List.mem_singleton_self _), List.prefix_append n w⟩

end JobSearch.Text
