import JobSearch.Part.Basic

/-!
# The canonical order of parts

The order compares groups and then values code point by code point; it is total and transitive
without telling all parts apart. Sorting keeps the parts of one key in the order in which they came,
and a sorted list is determined by its parts of each key, so canonical lists are compared key by
key.
-/

namespace JobSearch

namespace Text

private theorem compare_char_eq_lt_iff {c d : Char} : Ord.compare c d = .lt ↔ c < d :=
  compareOfLessAndEq_eq_lt

/-- `a` comes no later than `b` in the order of code points: the first character in which they
differ decides, and a text comes before those that it begins. -/
def NoLater : Text → Text → Prop
  | [], _ => True
  | _ :: _, [] => False
  | c :: a, d :: b => c < d ∨ c = d ∧ NoLater a b

theorem NoLater.refl (a : Text) : NoLater a a := by
  induction a with
  | nil => trivial
  | cons c a ih => exact Or.inr ⟨rfl, ih⟩

/-- Texts are compared character by character, in the order of code points. -/
theorem isLE_compare_iff {a b : Text} : (Ord.compare a b).isLE = true ↔ NoLater a b := by
  induction a generalizing b with
  | nil => cases b <;> simp [NoLater]
  | cons c a ih =>
    cases b with
    | nil => simp [NoLater]
    | cons d b =>
      rw [List.compare_cons_cons, Ordering.isLE_then_iff_or, compare_char_eq_lt_iff,
        Std.compare_eq_iff_eq, ih, NoLater]

/-- Texts that come no later than each other are equal. -/
theorem NoLater.antisymm {a b : Text} (hab : a.NoLater b) (hba : b.NoLater a) : a = b := by
  rw [← isLE_compare_iff] at hab hba
  exact Std.LawfulEqCmp.eq_of_compare (Std.OrientedCmp.isLE_antisymm hab hba)

end Text

namespace Part

instance : Std.TransCmp Part.compare :=
  inferInstanceAs (Std.TransCmp (compareLex (compareOn group) (compareOn orderText)))

/-- Two parts have the same key if their groups and their values agree. -/
theorem compare_eq_iff {p q : Part} :
    p.compare q = .eq ↔ p.group = q.group ∧ p.orderText = q.orderText := by
  rw [Part.compare, Ordering.then_eq_eq, Std.compare_eq_iff_eq, Std.compare_eq_iff_eq]

theorem notAfter_eq_isLE (p q : Part) : p.notAfter q = (p.compare q).isLE := by
  rw [notAfter]
  cases p.compare q <;> rfl

/-- The order in words: an earlier group, or in one group a value that is not greater. -/
theorem notAfter_iff {p q : Part} :
    p.notAfter q = true ↔
      p.group < q.group ∨ p.group = q.group ∧ p.orderText.NoLater q.orderText := by
  rw [notAfter_eq_isLE, Part.compare, Ordering.isLE_then_iff_or, Std.compare_eq_iff_eq,
    Text.isLE_compare_iff, Nat.compare_eq_lt]

theorem notAfter_trans (p q r : Part) (hpq : p.notAfter q = true) (hqr : q.notAfter r = true) :
    p.notAfter r = true := by
  rw [notAfter_eq_isLE] at hpq hqr ⊢
  exact Std.TransCmp.isLE_trans hpq hqr

theorem compare_swap (p q : Part) : q.compare p = (p.compare q).swap := Std.OrientedCmp.eq_swap

theorem notAfter_total (p q : Part) : (p.notAfter q || q.notAfter p) = true := by
  rw [notAfter_eq_isLE, notAfter_eq_isLE, compare_swap p q]
  cases p.compare q <;> rfl

/-- Parts that come after each other in neither order have the same key. -/
theorem compare_eq_of_notAfter {p q : Part} (hpq : p.notAfter q = true)
    (hqp : q.notAfter p = true) : p.compare q = .eq := by
  rw [notAfter_eq_isLE] at hpq hqp
  rw [compare_swap p q] at hqp
  cases h : p.compare q with
  | lt => simp [h] at hqp
  | eq => rfl
  | gt => simp [h] at hpq

/-- Two parts have the same key in canonical order. -/
def sameKey (p q : Part) : Bool := p.compare q == .eq

theorem sameKey_iff {p q : Part} :
    p.sameKey q = true ↔ p.group = q.group ∧ p.orderText = q.orderText := by
  rw [sameKey, beq_iff_eq, compare_eq_iff]

@[simp] theorem sameKey_self (p : Part) : p.sameKey p = true := sameKey_iff.mpr ⟨rfl, rfl⟩

/-- A list of parts is in canonical order. -/
def Ordered (ps : List Part) : Prop := ps.Pairwise fun p q => p.notAfter q = true

instance (ps : List Part) : Decidable (Ordered ps) := inferInstanceAs (Decidable (List.Pairwise ..))

theorem ordered_canonical (ps : List Part) : Ordered (canonical ps) :=
  List.pairwise_mergeSort notAfter_trans notAfter_total ps

/-- A list that is in order is left as it is. -/
theorem canonical_of_ordered {ps : List Part} (h : Ordered ps) : canonical ps = ps :=
  List.mergeSort_of_pairwise h

/-- Sorting keeps the parts of one key in the order in which they came. -/
theorem filter_sameKey_canonical (p : Part) (ps : List Part) :
    (canonical ps).filter p.sameKey = ps.filter p.sameKey := by
  have ho : (ps.filter p.sameKey).Pairwise fun q r => q.notAfter r = true := by
    refine List.pairwise_of_forall_mem_list fun q hq r hr => ?_
    have hq := sameKey_iff.mp (List.mem_filter.mp hq).2
    have hr := sameKey_iff.mp (List.mem_filter.mp hr).2
    refine notAfter_iff.mpr (Or.inr ⟨hq.1.symm.trans hr.1, ?_⟩)
    rw [← hq.2, ← hr.2]
    exact Text.NoLater.refl _
  have hs : (ps.filter p.sameKey).Sublist (canonical ps) :=
    List.sublist_mergeSort notAfter_trans notAfter_total ho List.filter_sublist
  have hf : (ps.filter p.sameKey).Sublist ((canonical ps).filter p.sameKey) := by
    simpa only [List.filter_filter, Bool.and_self] using hs.filter p.sameKey
  exact (hf.eq_of_length ((canonical_perm ps).filter _).length_eq.symm).symm

/-- A list in order is determined by its parts of each key. -/
theorem eq_of_ordered_of_filter_eq {ps qs : List Part} (hp : Ordered ps) (hq : Ordered qs)
    (h : ∀ p : Part, ps.filter p.sameKey = qs.filter p.sameKey) : ps = qs := by
  induction ps generalizing qs with
  | nil =>
    cases qs with
    | nil => rfl
    | cons q qs => simpa using h q
  | cons p ps ih =>
    cases qs with
    | nil => simpa using h p
    | cons q qs =>
      obtain ⟨hp₁, hp₂⟩ := List.pairwise_cons.mp hp
      obtain ⟨hq₁, hq₂⟩ := List.pairwise_cons.mp hq
      -- Each head occurs in the other list, so neither comes after the other.
      have hmem (r : Part) : r ∈ p :: ps ↔ r ∈ q :: qs := by
        have hr := congrArg (r ∈ ·) (h r)
        simpa only [List.mem_filter, sameKey_self, and_true, eq_iff_iff] using hr
      have hpq : p.notAfter q = true := by
        rcases List.mem_cons.mp ((hmem q).mpr (List.mem_cons_self ..)) with he | he
        · rw [he]
          simpa only [Bool.or_self] using notAfter_total p p
        · exact hp₁ q he
      have hqp : q.notAfter p = true := by
        rcases List.mem_cons.mp ((hmem p).mp (List.mem_cons_self ..)) with he | he
        · rw [he]
          simpa only [Bool.or_self] using notAfter_total q q
        · exact hq₁ p he
      have hk : p.sameKey q = true := by rw [sameKey, compare_eq_of_notAfter hpq hqp]; rfl
      have he : p = q := by
        have hh := h p
        rw [List.filter_cons_of_pos (sameKey_self p), List.filter_cons_of_pos hk] at hh
        exact (List.cons.inj hh).1
      subst q
      refine congrArg (p :: ·) (ih hp₂ hq₂ fun r => ?_)
      have hr := h r
      rw [List.filter_cons, List.filter_cons] at hr
      split at hr
      · exact (List.cons.inj hr).2
      · exact hr

/-- The canonical list is the only list in order that keeps the parts of each key as they came. -/
theorem eq_canonical_iff {ps qs : List Part} :
    qs = canonical ps ↔
      Ordered qs ∧ ∀ p : Part, qs.filter p.sameKey = ps.filter p.sameKey := by
  constructor
  · rintro rfl
    exact ⟨ordered_canonical ps, fun p => filter_sameKey_canonical p ps⟩
  · rintro ⟨ho, hf⟩
    refine eq_of_ordered_of_filter_eq ho (ordered_canonical ps) fun p => ?_
    rw [hf p, filter_sameKey_canonical]

/-- Of a list in order, only the keys that occur need to be looked at. -/
theorem canonical_eq_of_forall_mem {ps qs : List Part} (ho : Ordered qs)
    (hf : ∀ p ∈ ps ++ qs, qs.filter p.sameKey = ps.filter p.sameKey) : canonical ps = qs := by
  refine (eq_canonical_iff.mpr ⟨ho, fun p => ?_⟩).symm
  by_cases h : ∃ r ∈ ps ++ qs, p.sameKey r = true
  · obtain ⟨r, hr, hk⟩ := h
    obtain ⟨hg, ht⟩ := sameKey_iff.mp hk
    have he : p.sameKey = r.sameKey := by
      funext q
      rw [Bool.eq_iff_iff, sameKey_iff, sameKey_iff, hg, ht]
    rw [he]
    exact hf r hr
  · have hn {l : List Part} (hl : ∀ r ∈ l, r ∈ ps ++ qs) : l.filter p.sameKey = [] :=
      List.filter_eq_nil_iff.mpr fun r hr hk => h ⟨r, hl r hr, hk⟩
    rw [hn fun r hr => List.mem_append_right _ hr, hn fun r hr => List.mem_append_left _ hr]

/-- Two lists are sorted to one exactly when they agree on the parts of each key. -/
theorem canonical_eq_canonical_iff {ps qs : List Part} :
    canonical ps = canonical qs ↔
      ∀ p : Part, ps.filter p.sameKey = qs.filter p.sameKey := by
  rw [eq_canonical_iff]
  simp only [ordered_canonical, true_and, filter_sameKey_canonical]

/-- Sorting twice is sorting once. -/
@[simp] theorem canonical_canonical (ps : List Part) : canonical (canonical ps) = canonical ps :=
  canonical_of_ordered (ordered_canonical ps)

/-- Parts may be left out before or after sorting. -/
theorem filter_canonical (f : Part → Bool) (ps : List Part) :
    (canonical ps).filter f = canonical (ps.filter f) := by
  refine eq_canonical_iff.mpr ⟨(ordered_canonical ps).sublist List.filter_sublist, fun p => ?_⟩
  have hcomm (l : List Part) : (l.filter f).filter p.sameKey = (l.filter p.sameKey).filter f := by
    simp only [List.filter_filter, Bool.and_comm]
  rw [hcomm, hcomm, filter_sameKey_canonical]

/-- What is sorted already may be sorted again with other parts behind it. -/
theorem canonical_canonical_append (ps qs : List Part) :
    canonical (canonical ps ++ qs) = canonical (ps ++ qs) := by
  refine canonical_eq_canonical_iff.mpr fun p => ?_
  rw [List.filter_append, List.filter_append, filter_sameKey_canonical]

/-- What is sorted already may be sorted again with other parts in front of it. -/
theorem canonical_append_canonical (ps qs : List Part) :
    canonical (ps ++ canonical qs) = canonical (ps ++ qs) := by
  refine canonical_eq_canonical_iff.mpr fun p => ?_
  rw [List.filter_append, List.filter_append, filter_sameKey_canonical]

theorem mem_canonical {p : Part} {ps : List Part} : p ∈ canonical ps ↔ p ∈ ps :=
  (canonical_perm ps).mem_iff

end Part

end JobSearch
