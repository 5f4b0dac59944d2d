import JobSearch.Proofs.Query.Sweep

/-!
# Setting an operator

The operator is looked for by its characters and not by words. It has no white space, so an
occurrence inside a word covers nothing outside that word and hides no start of another one: the
first word that starts with the operator is found. Setting the operator writes a value behind that
start and leaves all other characters as they are; without such a word there is one more at the end.
Either way the text around the value does not depend on the value, so the value set last wins.
-/

namespace JobSearch.Query

/-- The first word of `q` that starts with `needle` stands between `front` and `back`, and goes on
with `tail`. -/
structure FirstStart (needle q front tail back : Text) : Prop where
  /-- Nothing else is in the text. -/
  eq : q = front ++ (needle ++ tail) ++ back
  /-- A word starts behind `front`. -/
  starts : front = [] ∨ ∃ a c, front = a ++ [c] ∧ Text.isBlank c = true
  /-- The word goes on to the end of `tail`. -/
  inside : ∀ c ∈ tail, Text.isBlank c = false
  /-- The word ends in front of `back`. -/
  ends : back = [] ∨ ∃ c b, back = c :: b ∧ Text.isBlank c = true
  /-- No word in front starts with `needle`. -/
  first : ∀ w ∈ front.words, ¬ needle <+: w

/-- What has no white space stands in front of a text only if it stands in front of the run that the
text starts with. -/
theorem prefix_of_prefix_append_cons {needle w r : Text} {c : Char} (hn : Text.IsWord needle)
    (hc : Text.isBlank c = true) (h : needle <+: w ++ c :: r) : needle <+: w := by
  have hw : w ++ [c] <+: w ++ c :: r := by simp
  rcases List.prefix_or_prefix_of_prefix h hw with h | h
  · rcases List.prefix_concat_iff.mp h with he | h
    · have hb := hn.2 c (by simp [he])
      rw [hc] at hb
      cases hb
    · exact h
  · have hb := hn.2 c (h.subset (by simp))
    rw [hc] at hb
    cases hb

/-- Inside a word nothing is found, and what an occurrence there covers ends with the word. -/
theorem splitAtOperator_run {needle w : Text} {c : Char} (hn : Text.IsWord needle)
    (hw : ∀ d ∈ w, Text.isBlank d = false) (hc : Text.isBlank c = true) {skip : Nat}
    (hs : skip ≤ w.length) (r : Text) :
    splitAtOperator needle skip false (w ++ c :: r) =
      (splitAtOperator needle 0 true r).map fun p => (w ++ c :: p.1, p.2) := by
  induction w generalizing skip with
  | nil =>
    obtain rfl : skip = 0 := Nat.le_zero.mp hs
    have hp : needle.isPrefixOf (c :: r) = false := by
      rw [← Bool.not_eq_true, List.isPrefixOf_iff_prefix]
      intro hp
      exact hn.1 (List.prefix_nil.mp (prefix_of_prefix_append_cons (w := []) hn hc hp))
    simp only [List.nil_append, splitAtOperator, hp, Bool.false_and, Bool.false_eq_true, if_false,
      hc]
  | cons d w ih =>
    obtain ⟨hd, hw⟩ := List.forall_mem_cons.mp hw
    have hstep {skip : Nat} (hs : skip ≤ w.length) :
        (splitAtOperator needle skip (Text.isBlank d) (w ++ c :: r)).map
            (fun p => (d :: p.1, p.2)) =
          (splitAtOperator needle 0 true r).map fun p => (d :: w ++ c :: p.1, p.2) := by
      rw [hd, ih hw hs, Option.map_map]
      rfl
    cases skip with
    | succ skip => exact hstep (Nat.le_of_succ_le_succ hs)
    | zero =>
      rw [List.cons_append, splitAtOperator, Bool.and_false, if_neg Bool.false_ne_true]
      refine hstep ?_
      split
      · next hp =>
        have hp := prefix_of_prefix_append_cons (w := d :: w) hn hc
          (List.isPrefixOf_iff_prefix.mp hp)
        have hlen := hp.length_le
        rw [List.length_cons] at hlen
        omega
      · exact Nat.zero_le _

/-- A word that does not start with the operator is passed over together with the white space behind
it. -/
theorem splitAtOperator_append_cons {needle w : Text} {c : Char} (hn : Text.IsWord needle)
    (hw : ∀ d ∈ w, Text.isBlank d = false) (hp : ¬ needle <+: w) (hc : Text.isBlank c = true)
    (r : Text) :
    splitAtOperator needle 0 true (w ++ c :: r) =
      (splitAtOperator needle 0 true r).map fun p => (w ++ c :: p.1, p.2) := by
  have hnot : needle.isPrefixOf (w ++ c :: r) = false := by
    rw [← Bool.not_eq_true, List.isPrefixOf_iff_prefix]
    exact fun h => hp (prefix_of_prefix_append_cons hn hc h)
  rw [← splitAtOperator_run hn hw hc (Nat.zero_le _)]
  cases w with
  | nil =>
    rw [List.nil_append] at hnot ⊢
    simp only [splitAtOperator, hnot, Bool.false_and]
  | cons d w =>
    rw [List.cons_append] at hnot ⊢
    simp only [splitAtOperator, hnot, Bool.false_and]

/-- The first word that starts with the operator is found. -/
theorem FirstStart.splitAtOperator {needle q front tail back : Text} (hn : Text.IsWord needle)
    (h : FirstStart needle q front tail back) :
    splitAtOperator needle 0 true q = some (front, tail ++ back) := by
  obtain ⟨rfl, hstarts, -, -, hfirst⟩ := h
  rw [List.append_assoc, List.append_assoc]
  induction front using Text.induction_on_runs with
  | run w hw =>
    -- A piece that is empty or ends with white space and has none is empty.
    obtain rfl : w = [] := by
      rcases hstarts with he | ⟨a, c, rfl, hc⟩
      · exact he
      · rw [hw c (by simp)] at hc
        cases hc
    obtain ⟨d, n, rfl⟩ := List.exists_cons_of_ne_nil hn.1
    have hp : (d :: n).isPrefixOf (d :: (n ++ (tail ++ back))) = true :=
      List.isPrefixOf_iff_prefix.mpr (List.prefix_append (d :: n) (tail ++ back))
    rw [List.nil_append, List.cons_append, Query.splitAtOperator, hp, Bool.true_and, if_pos rfl,
      List.length_cons, List.drop_succ_cons, List.drop_left]
  | cut w c r hw hc ih =>
    rw [Text.words_append_cons hc] at hfirst
    have hp : ¬ needle <+: w := by
      intro hp
      have hne : w ≠ [] := fun he => hn.1 (List.prefix_nil.mp (he ▸ hp))
      exact hfirst w (by simp [Text.words_of_isWord ⟨hne, hw⟩]) hp
    have hrest : r = [] ∨ ∃ a d, r = a ++ [d] ∧ Text.isBlank d = true := by
      rcases List.eq_nil_or_concat r with he | ⟨a, d, rfl⟩
      · exact Or.inl he
      · refine Or.inr ⟨a, d, List.concat_eq_append, ?_⟩
        rcases hstarts with he | ⟨b, e, he, hb⟩
        · simp at he
        · rw [List.concat_eq_append, ← List.cons_append, ← List.append_assoc] at he
          rw [List.singleton_inj.mp (List.append_inj_right' he rfl)]
          exact hb
    rw [List.append_assoc, List.cons_append, splitAtOperator_append_cons hn hw hp hc,
      ih hrest fun v hv => hfirst v (List.mem_append_right _ hv)]
    rfl

/-- A text in which some word starts with the operator has a first such word. -/
theorem exists_firstStart {needle q : Text} (h : ∃ w ∈ q.words, needle <+: w) :
    ∃ front tail back, FirstStart needle q front tail back := by
  induction q using Text.induction_on_runs with
  | run w hw =>
    obtain ⟨v, hv, hp⟩ := h
    have hne : w ≠ [] := by
      rintro rfl
      cases hv
    rw [Text.words_of_isWord ⟨hne, hw⟩, List.mem_singleton] at hv
    obtain ⟨tail, rfl⟩ := hv ▸ hp
    exact ⟨[], tail, [], by simp, Or.inl rfl, fun c hc => hw c (List.mem_append_right _ hc),
      Or.inl rfl, by simp⟩
  | cut w c r hw hc ih =>
    by_cases hp : needle <+: w
    · obtain ⟨tail, rfl⟩ := hp
      exact ⟨[], tail, c :: r, by simp, Or.inl rfl, fun d hd => hw d (List.mem_append_right _ hd),
        Or.inr ⟨c, r, rfl, hc⟩, by simp⟩
    · have hwords : ∀ v ∈ w.words, ¬ needle <+: v := by
        intro v hv
        by_cases hne : w = []
        · simp [hne] at hv
        · rw [Text.words_of_isWord ⟨hne, hw⟩, List.mem_singleton] at hv
          exact hv ▸ hp
      rw [Text.words_append_cons hc] at h
      obtain ⟨v, hv, hpv⟩ := h
      have hv := (List.mem_append.mp hv).resolve_left fun hm => hwords v hm hpv
      obtain ⟨front, tail, back, rfl, hstarts, hinside, hends, hfirst⟩ := ih ⟨v, hv, hpv⟩
      refine ⟨w ++ c :: front, tail, back, by simp, Or.inr ?_, hinside, hends, ?_⟩
      · rcases hstarts with rfl | ⟨a, d, rfl, hd⟩
        · exact ⟨w, c, rfl, hc⟩
        · exact ⟨w ++ c :: a, d, by simp, hd⟩
      · rw [Text.words_append_cons hc]
        exact fun u hu => (List.mem_append.mp hu).elim (hwords u) (hfirst u)

section Value

variable {key value needle q front tail back : Text}

/-- The words of a text around the one that starts with the operator. -/
theorem FirstStart.words (hn : Text.IsWord needle) (h : FirstStart needle q front tail back) :
    q.words = front.words ++ (needle ++ tail) :: back.words := by
  obtain ⟨rfl, hstarts, hinside, hends, -⟩ := h
  have hword : Text.words (needle ++ tail) = [needle ++ tail] :=
    Text.words_of_isWord (hn.append hinside)
  have hback : Text.words ((needle ++ tail) ++ back) = (needle ++ tail) :: back.words := by
    rcases hends with rfl | ⟨c, b, rfl, hc⟩
    · rw [List.append_nil, hword]
      rfl
    · rw [Text.words_append_cons hc, hword, Text.words_cons hc]
      rfl
  rcases hstarts with rfl | ⟨a, c, rfl, hc⟩
  · rw [List.nil_append, hback]
    rfl
  · rw [List.append_assoc, List.append_assoc, List.singleton_append, Text.words_append_cons hc,
      hback, Text.words_append_cons hc, Text.words_nil, List.append_nil]

/-- Another value behind the operator leaves it where it is. -/
theorem FirstStart.replace (h : FirstStart needle q front tail back)
    (hv : ∀ c ∈ value, Text.isBlank c = false) :
    FirstStart needle (front ++ (needle ++ value) ++ back) front value back :=
  ⟨rfl, h.starts, hv, h.ends, h.first⟩

theorem isWord_operatorStart_of_not_isBlank (hk : ∀ c ∈ key, Text.isBlank c = false) :
    Text.IsWord (operatorStart key) := by
  refine ⟨by simp [operatorStart], fun c hc => ?_⟩
  rcases List.mem_append.mp hc with hc | hc
  · exact hk c hc
  · rw [List.mem_singleton.mp hc]
    rfl

/-- The value is written over what the first word goes on with. -/
theorem FirstStart.setOperator (hk : ∀ c ∈ key, Text.isBlank c = false)
    (h : FirstStart (operatorStart key) q front tail back) (value : Text) :
    setOperator q key value = front ++ (operatorStart key ++ value) ++ back := by
  have hback : (tail ++ back).dropWhile (fun c => !Text.isBlank c) = back := by
    rw [List.dropWhile_append_of_pos fun c hc => by rw [h.inside c hc]; rfl]
    rcases h.ends with rfl | ⟨c, b, rfl, hc⟩
    · rfl
    · rw [List.dropWhile_cons_of_neg (by simp [hc])]
  rw [Query.setOperator, h.splitAtOperator (isWord_operatorStart_of_not_isBlank hk)]
  simp only [hback, List.append_assoc]

/-- What stands in front of a word that is added: nothing if there are no other words, else all of
them and a space. -/
def beforeAdded (q : Text) : Text := if q.isAllBlank then [] else q.trimEnd ++ [' ']

theorem words_beforeAdded (q : Text) : (beforeAdded q).words = q.words := by
  unfold beforeAdded
  split
  · next hb => rw [Text.words_nil, ← List.nil_append q, Text.words_append_blank hb, Text.words_nil]
  · rw [Text.words_append_blank rfl, Text.words_trimEnd]

/-- An operator with which no word starts is added as the last word. -/
theorem setOperator_of_forall (hk : ∀ c ∈ key, Text.isBlank c = false)
    (hv : ∀ c ∈ value, Text.isBlank c = false)
    (h : ∀ w ∈ q.words, ¬ operatorStart key <+: w) :
    setOperator q key value = beforeAdded q ++ (operatorStart key ++ value) ∧
      FirstStart (operatorStart key) (setOperator q key value) (beforeAdded q) value [] := by
  have hset : setOperator q key value = beforeAdded q ++ (operatorStart key ++ value) := by
    have hnone := splitAtOperator_eq_none (isWord_operatorStart_of_not_isBlank hk) h
    simp only [setOperator, hnone, beforeAdded]
    split
    · rfl
    · simp only [List.append_assoc, List.cons_append, List.nil_append]
  refine ⟨hset, by rw [hset, List.append_nil], ?_, hv, Or.inl rfl, ?_⟩
  · unfold beforeAdded
    split
    · exact Or.inl rfl
    · exact Or.inr ⟨q.trimEnd, ' ', rfl, rfl⟩
  · rwa [words_beforeAdded]

/-- The text around a value that is set does not depend on the value, and behind it stands the first
word that starts with the operator. -/
theorem exists_frame (hk : ∀ c ∈ key, Text.isBlank c = false) (q : Text) :
    ∃ front back, ∀ value, (∀ c ∈ value, Text.isBlank c = false) →
      setOperator q key value = front ++ (operatorStart key ++ value) ++ back ∧
        FirstStart (operatorStart key) (setOperator q key value) front value back := by
  by_cases h : ∃ w ∈ q.words, operatorStart key <+: w
  · obtain ⟨front, tail, back, hf⟩ := exists_firstStart h
    refine ⟨front, back, fun value hv => ?_⟩
    rw [hf.setOperator hk]
    exact ⟨rfl, hf.replace hv⟩
  · have h : ∀ w ∈ q.words, ¬ operatorStart key <+: w := fun w hw hp => h ⟨w, hw, hp⟩
    refine ⟨beforeAdded q, [], fun value hv => ?_⟩
    rw [List.append_nil]
    exact setOperator_of_forall hk hv h

/-- The value that is set last wins. -/
theorem setOperator_setOperator {v w : Text} (hk : ∀ c ∈ key, Text.isBlank c = false)
    (hv : ∀ c ∈ v, Text.isBlank c = false) (hw : ∀ c ∈ w, Text.isBlank c = false) (q : Text) :
    setOperator (setOperator q key v) key w = setOperator q key w := by
  obtain ⟨front, back, h⟩ := exists_frame hk q
  rw [(h w hw).1]
  exact (h v hv).2.setOperator hk w

end Value

/-- Setting an operator replaces what the first word that starts with it goes on with and nothing
else; if there is no such word, one more word is added at the end. The value that is set last wins,
and every word that does not start with the operator keeps its place, whatever stands inside it. -/
theorem setOperator_rewrites_one_word {key value : Text}
    (hk : ∀ c ∈ key, Text.isBlank c = false) (hv : ∀ c ∈ value, Text.isBlank c = false) (q : Text) :
    ((∃ w ∈ q.words, operatorStart key <+: w) → ∃ front tail back,
      FirstStart (operatorStart key) q front tail back ∧
      setOperator q key value = front ++ (operatorStart key ++ value) ++ back) ∧
    ((∀ w ∈ q.words, ¬ operatorStart key <+: w) →
      (setOperator q key value).words = q.words ++ [operatorStart key ++ value]) ∧
    (∀ v, (∀ c ∈ v, Text.isBlank c = false) →
      setOperator (setOperator q key v) key value = setOperator q key value) ∧
    ∀ (i : Nat) (w : Text), q.words[i]? = some w → ¬ operatorStart key <+: w →
      (setOperator q key value).words[i]? = some w := by
  have hn := isWord_operatorStart_of_not_isBlank hk
  have hfound (h : ∃ w ∈ q.words, operatorStart key <+: w) : ∃ front tail back,
      FirstStart (operatorStart key) q front tail back ∧
      setOperator q key value = front ++ (operatorStart key ++ value) ++ back := by
    obtain ⟨front, tail, back, hf⟩ := exists_firstStart h
    exact ⟨front, tail, back, hf, hf.setOperator hk value⟩
  have hadded (h : ∀ w ∈ q.words, ¬ operatorStart key <+: w) :
      (setOperator q key value).words = q.words ++ [operatorStart key ++ value] := by
    obtain ⟨-, hf⟩ := setOperator_of_forall hk hv h
    rw [hf.words hn, words_beforeAdded, Text.words_nil]
  refine ⟨hfound, hadded, fun v hb => setOperator_setOperator hk hb hv q, fun i w hi hp => ?_⟩
  by_cases h : ∃ w ∈ q.words, operatorStart key <+: w
  · obtain ⟨front, tail, back, hf, hset⟩ := hfound h
    rw [hset, (hf.replace hv).words hn]
    rw [hf.words hn] at hi
    by_cases hlt : i < front.words.length
    · rwa [List.getElem?_append_left hlt] at hi ⊢
    · rw [List.getElem?_append_right (Nat.not_lt.mp hlt)] at hi ⊢
      cases hj : i - front.words.length with
      | zero =>
        rw [hj] at hi
        obtain rfl := Option.some.inj hi
        exact absurd (List.prefix_append ..) hp
      | succ j =>
        rw [hj] at hi
        exact hi
  · rw [hadded fun w hw hp => h ⟨w, hw, hp⟩]
    exact List.getElem?_append_left (List.getElem?_eq_some_iff.mp hi).1 ▸ hi

/-- An operator that overlaps itself stands inside the first word, and a wide space behind it. -/
theorem setOperator_rewrites_one_word_overlapping :
    let key : Text := "a:a".toList
    let value : Text := "9".toList
    let q : Text := " xa:a:a:b\u3000a:a:a:c  a:a:d".toList
    ((∀ c ∈ key, Text.isBlank c = false) ∧ (∀ c ∈ value, Text.isBlank c = false) ∧
      ∃ w ∈ q.words, operatorStart key <+: w) ∧
    setOperator q key value = " xa:a:a:b\u3000a:a:9  a:a:d".toList ∧
    setOperator (setOperator q key "b".toList) key value = setOperator q key value ∧
    (setOperator q key value).words[0]? = some "xa:a:a:b".toList := by
  intro key value q
  have hkey : Text.IsWord key := by decide
  have hvalue : Text.IsWord value := by decide
  have hother : Text.IsWord "b".toList := by decide
  have hw : ∃ w ∈ q.words, operatorStart key <+: w := by decide +kernel
  obtain ⟨-, -, hlast, hkept⟩ := setOperator_rewrites_one_word hkey.2 hvalue.2 q
  exact ⟨⟨hkey.2, hvalue.2, hw⟩, by decide +kernel, hlast _ hother.2,
    hkept 0 _ (by decide +kernel) (by decide)⟩

end JobSearch.Query
