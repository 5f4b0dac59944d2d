import JobSearch.Text.Basic

/-!
# Searching, cutting and replacing in texts

A search finds exactly the contiguous parts of a text. Cutting a text at a mark loses nothing, and
a mark whose first character does not occur earlier is cut at exactly where it stands. Replacing
goes through a text from left to right and depends on nothing but what is left of it.
-/

namespace JobSearch.Text

/-- A search succeeds exactly on the contiguous parts of a text. -/
theorem contains_iff {t needle : Text} : t.contains needle = true ↔ needle <:+: t := by
  induction t with
  | nil => rw [contains, List.isEmpty_iff, List.infix_nil]
  | cons c r ih =>
    rw [contains, Bool.or_eq_true, List.isPrefixOf_iff_prefix, ih, List.infix_cons_iff]

theorem contains_eq_false_iff {t needle : Text} :
    t.contains needle = false ↔ ¬ needle <:+: t := by
  rw [← contains_iff, Bool.not_eq_true]

/-- There is nothing to cut at exactly when the mark does not occur. -/
theorem cutAt?_eq_none_iff {needle t : Text} : cutAt? needle t = none ↔ ¬ needle <:+: t := by
  induction t with
  | nil =>
    cases needle with
    | nil => simp [cutAt?]
    | cons d n => simp [cutAt?]
  | cons c r ih =>
    rw [cutAt?, List.infix_cons_iff, not_or, ← ih]
    by_cases h : needle.isPrefixOf (c :: r) = true
    · simp only [h, ite_true, reduceCtorEq, List.isPrefixOf_iff_prefix.mp h, not_true, false_and]
    · have hp : ¬ needle <+: c :: r := fun hp => h (List.isPrefixOf_iff_prefix.mpr hp)
      simp only [h, Bool.false_eq_true, ite_false, Option.map_eq_none_iff, hp, not_false_eq_true,
        true_and]

/-- A cut loses nothing but the mark. -/
theorem eq_append_of_cutAt? {needle t a b : Text} (h : cutAt? needle t = some (a, b)) :
    t = a ++ needle ++ b := by
  induction t generalizing a with
  | nil =>
    cases needle with
    | nil =>
      simp only [cutAt?, List.isEmpty_nil, ite_true, Option.some.injEq, Prod.mk.injEq] at h
      rw [← h.1, ← h.2]
      rfl
    | cons d n => simp [cutAt?] at h
  | cons c r ih =>
    rw [cutAt?] at h
    by_cases hp : needle.isPrefixOf (c :: r) = true
    · simp only [hp, ite_true, Option.some.injEq, Prod.mk.injEq] at h
      rw [← h.1, ← h.2, List.nil_append]
      exact List.prefix_iff_eq_append.mp (List.isPrefixOf_iff_prefix.mp hp) |>.symm
    · simp only [hp, Bool.false_eq_true, ite_false, Option.map_eq_some_iff, Prod.exists,
        Prod.mk.injEq] at h
      obtain ⟨a', b', he, rfl, rfl⟩ := h
      rw [ih he, List.cons_append, List.cons_append]

/-- A mark is cut at where it stands if its first character does not occur earlier. -/
theorem cutAt?_append {d : Char} {n a b : Text} (ha : d ∉ a) :
    cutAt? (d :: n) (a ++ (d :: n) ++ b) = some (a, b) := by
  induction a with
  | nil =>
    have hp : (d :: n).isPrefixOf (d :: (n ++ b)) = true :=
      List.isPrefixOf_iff_prefix.mpr (List.prefix_append (d :: n) b)
    simp only [List.nil_append, List.cons_append, cutAt?, hp, ite_true, List.drop_left',
      List.length_cons, List.drop_succ_cons]
  | cons c a ih =>
    have hp : (d :: n).isPrefixOf (c :: (a ++ (d :: n) ++ b)) = false := by
      simp only [List.isPrefixOf_cons_cons, Bool.and_eq_false_imp, beq_iff_eq]
      exact fun he => absurd (he ▸ List.mem_cons_self ..) ha
    rw [List.cons_append, List.cons_append, cutAt?, hp,
      ih fun hm => ha (List.mem_cons_of_mem c hm)]
    rfl

/-- A mark is not looked for where its first character does not occur. -/
theorem isInfix_append_iff {d : Char} {n a b : Text} (ha : d ∉ a) :
    d :: n <:+: a ++ b ↔ d :: n <:+: b := by
  induction a with
  | nil => rw [List.nil_append]
  | cons c a ih =>
    have hp : ¬ d :: n <+: c :: (a ++ b) := fun hp =>
      ha (by rw [(List.cons_prefix_cons.mp hp).1]; exact List.mem_cons_self ..)
    rw [List.cons_append, List.infix_cons_iff, ih fun hm => ha (List.mem_cons_of_mem c hm)]
    exact or_iff_right hp

/-- Characters that belong to a needle already replaced are passed over. -/
theorem replaceFrom_eq_drop (needle new : Text) (skip : Nat) (t : Text) :
    replaceFrom needle new skip t = replaceFrom needle new 0 (t.drop skip) := by
  induction skip generalizing t with
  | zero => rfl
  | succ skip ih =>
    cases t with
    | nil => rfl
    | cons c r => rw [replaceFrom, ih, List.drop_succ_cons]

/-- A needle in front is replaced, whatever follows. -/
theorem replaceAll_append {d : Char} {n new : Text} (t : Text) :
    replaceAll (d :: n ++ t) (d :: n) new = new ++ replaceAll t (d :: n) new := by
  have hp : (d :: n).isPrefixOf (d :: (n ++ t)) = true :=
    List.isPrefixOf_iff_prefix.mpr (List.prefix_append (d :: n) t)
  rw [replaceAll, List.cons_append, replaceFrom, if_pos hp, replaceFrom_eq_drop, List.length_cons,
    Nat.add_sub_cancel, List.drop_left, replaceAll]

/-- Nothing is replaced where no needle starts. -/
theorem replaceAll_cons {needle new : Text} {c : Char} {t : Text} (h : ¬ needle <+: c :: t) :
    replaceAll (c :: t) needle new = c :: replaceAll t needle new := by
  rw [replaceAll, replaceFrom, if_neg (by rwa [List.isPrefixOf_iff_prefix]), replaceAll]

end JobSearch.Text
