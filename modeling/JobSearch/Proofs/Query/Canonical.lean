import JobSearch.Proofs.Query.Reading

/-!
# The canonical form of a query and what it forgets

Reading a query gives the one list in canonical order that keeps the parts of each key as they were
written. Two queries are therefore read alike exactly when their texts, their salary ranges and, for
each value, the kinds of its operators come in the same order; nothing else about them matters.
-/

namespace JobSearch

namespace Part

/-- The input of a free text. -/
def text? : Part → Option Text
  | .text t => some t
  | _ => none

/-- The range of a salary part. -/
def range? : Part → Option SalaryRange
  | .salary r => some r
  | _ => none

/-- The free texts of a list of parts, in order. -/
def texts (ps : List Part) : List Text := ps.filterMap text?

/-- The salary ranges of a list of parts, in order. -/
def ranges (ps : List Part) : List SalaryRange := ps.filterMap range?

/-- The kinds of the operators with the value `v`, in order. -/
def kindsWith (v : Text) (ps : List Part) : List PartKind :=
  (ps.filter fun p => p.operatorValue? == some v).map kind

/-- `ps` is the canonical form of `rs`: its parts in canonical order, those of each key in the order
of `rs`. -/
structure IsCanonicalForm (rs ps : List Part) : Prop where
  /-- No part is lost or added. -/
  perm : ps.Perm rs
  /-- No part stands in front of one that it comes after. -/
  ordered : ps.Pairwise fun p q => p.compare q ≠ .gt
  /-- Parts that the order does not tell apart keep their places. -/
  stable : ∀ p : Part, ps.filter (fun q => p.compare q = .eq) = rs.filter fun q => p.compare q = .eq

/-- Every list has exactly one canonical form. -/
theorem isCanonicalForm_iff {rs ps : List Part} :
    IsCanonicalForm rs ps ↔ ps = canonical rs := by
  have hs (p : Part) (l : List Part) :
      l.filter (fun q => p.compare q = .eq) = l.filter p.sameKey := by
    refine List.filter_congr fun q _ => ?_
    rw [Bool.eq_iff_iff, decide_eq_true_iff, sameKey, beq_iff_eq]
  have ho (l : List Part) : l.Pairwise (fun p q => p.compare q ≠ .gt) ↔ Ordered l := by
    refine List.Pairwise.iff fun {p q} => ?_
    rw [notAfter, bne_iff_ne]
  constructor
  · intro h
    exact eq_canonical_iff.mpr ⟨(ho ps).mp h.ordered, fun p => by rw [← hs, ← hs, h.stable]⟩
  · rintro rfl
    obtain ⟨h₁, h₂⟩ := eq_canonical_iff.mp (rfl : canonical rs = canonical rs)
    exact ⟨canonical_perm rs, (ho _).mpr h₁, fun p => by rw [hs, hs, h₂]⟩

private theorem filter_eq_map_filterMap {f : α → Option β} {g : β → α} {k : α → Bool}
    (hk : ∀ x, k x = (f x).isSome) (hg : ∀ x y, f x = some y → g y = x) (xs : List α) :
    xs.filter k = (xs.filterMap f).map g := by
  induction xs with
  | nil => rfl
  | cons x xs ih =>
    cases hx : f x with
    | none => rw [List.filter_cons_of_neg (by simp [hk, hx]), List.filterMap_cons_none hx, ih]
    | some y =>
      rw [List.filter_cons_of_pos (by simp [hk, hx]), List.filterMap_cons_some hx, List.map_cons,
        hg x y hx, ih]

theorem filter_sameKey_text (t : Text) (ps : List Part) :
    ps.filter (sameKey (.text t)) = (texts ps).map .text := by
  refine filter_eq_map_filterMap (fun p => ?_) (fun p u h => ?_) ps
  · cases p <;> rfl
  · cases p <;> cases h
    rfl

theorem filter_sameKey_salary (r : SalaryRange) (ps : List Part) :
    ps.filter (sameKey (.salary r)) = (ranges ps).map .salary := by
  refine filter_eq_map_filterMap (fun p => ?_) (fun p u h => ?_) ps
  · cases p <;> rfl
  · cases p <;> cases h
    rfl

/-- Sorting keeps the free texts in the order in which they came. -/
@[simp] theorem texts_canonical (ps : List Part) : texts (canonical ps) = texts ps := by
  have h := filter_sameKey_canonical (.text []) ps
  rw [filter_sameKey_text, filter_sameKey_text] at h
  exact (List.map_inj_right fun t u => Part.text.inj).mp h

/-- Sorting keeps the salary ranges in the order in which they came. -/
@[simp] theorem ranges_canonical (ps : List Part) : ranges (canonical ps) = ranges ps := by
  have h := filter_sameKey_canonical (.salary ⟨none, none⟩) ps
  rw [filter_sameKey_salary, filter_sameKey_salary] at h
  exact (List.map_inj_right fun r s => Part.salary.inj).mp h

theorem group_orderText_of_operatorValue? {p : Part} {v : Text} (h : p.operatorValue? = some v) :
    p.group = 2 ∧ p.orderText = v := by
  cases p <;> cases h <;> exact ⟨rfl, rfl⟩

/-- An operator has the key of exactly the operators with its value, where no part is relative to
today. -/
theorem filter_sameKey_operator {p : Part} {v : Text} (h : p.operatorValue? = some v)
    {ps : List Part} (hl : ∀ m, .lastMonth m ∉ ps) :
    ps.filter p.sameKey = ps.filter fun q => q.operatorValue? == some v := by
  obtain ⟨hg, ho⟩ := group_orderText_of_operatorValue? h
  refine List.filter_congr fun q hq => ?_
  rw [Bool.eq_iff_iff, sameKey_iff, hg, ho, beq_iff_eq]
  cases q with
  | lastMonth m => exact absurd hq (hl m)
  | text t => simp [group, operatorValue?]
  | salary r => simp [group, operatorValue?]
  | site w => simp [group, orderText, operatorValue?, eq_comm]
  | after w => simp [group, orderText, operatorValue?, eq_comm]
  | before w => simp [group, orderText, operatorValue?, eq_comm]

/-- Operators with one value are told apart by their kinds. -/
theorem eq_of_map_kind_eq {v : Text} {ps qs : List Part}
    (hp : ∀ p ∈ ps, p.operatorValue? = some v) (hq : ∀ q ∈ qs, q.operatorValue? = some v)
    (h : ps.map kind = qs.map kind) : ps = qs := by
  have hmap {l : List Part} (hl : ∀ p ∈ l, p.operatorValue? = some v) :
      (l.map kind).map (fun k => ofOperator? k.name v) = l.map some := by
    rw [List.map_map]
    exact List.map_congr_left fun p hp => ofOperator?_kind_name (hl p hp)
  exact (List.map_inj_right fun p q => Option.some.inj).mp (by rw [← hmap hp, h, hmap hq])

/-- Without parts that are relative to today, two lists have one canonical form exactly when their
texts, their ranges and the kinds for each value agree. -/
theorem canonical_eq_canonical_iff_of_forall {ps qs : List Part} (hp : ∀ m, .lastMonth m ∉ ps)
    (hq : ∀ m, .lastMonth m ∉ qs) :
    canonical ps = canonical qs ↔
      texts ps = texts qs ∧ ranges ps = ranges qs ∧ ∀ v, kindsWith v ps = kindsWith v qs := by
  rw [canonical_eq_canonical_iff]
  constructor
  · intro h
    refine ⟨?_, ?_, fun v => ?_⟩
    · have ht := h (.text [])
      rw [filter_sameKey_text, filter_sameKey_text] at ht
      exact (List.map_inj_right fun t u => Part.text.inj).mp ht
    · have hr := h (.salary ⟨none, none⟩)
      rw [filter_sameKey_salary, filter_sameKey_salary] at hr
      exact (List.map_inj_right fun r s => Part.salary.inj).mp hr
    · have hv := h (.site v)
      rw [filter_sameKey_operator rfl hp, filter_sameKey_operator rfl hq] at hv
      rw [kindsWith, kindsWith, hv]
  · rintro ⟨ht, hr, hk⟩
    have hop {p : Part} {v : Text} (h : p.operatorValue? = some v) :
        ps.filter p.sameKey = qs.filter p.sameKey := by
      rw [filter_sameKey_operator h hp, filter_sameKey_operator h hq]
      refine eq_of_map_kind_eq (v := v) (fun r hr => ?_) (fun r hr => ?_) (hk v)
      · simpa using (List.mem_filter.mp hr).2
      · simpa using (List.mem_filter.mp hr).2
    intro p
    cases p with
    | text t => rw [filter_sameKey_text, filter_sameKey_text, ht]
    | salary r => rw [filter_sameKey_salary, filter_sameKey_salary, hr]
    | site v => exact hop rfl
    | after v => exact hop rfl
    | before v => exact hop rfl
    | lastMonth m => exact hop (p := .site (m.getD [])) rfl

end Part

namespace Query

/-- No word names a day relative to today. -/
theorem Reads.lastMonth_not_mem {ws : List Text} {rs : List Part} (h : Reads ws rs)
    (m : Option Text) : .lastMonth m ∉ rs := by
  intro hm
  obtain ⟨w, -, hw⟩ := h.exists_word hm
  rcases Part.ofToken_cases_some hw with ⟨he, -⟩ | ⟨r, he, -⟩ | ⟨v, hv, -⟩
  · cases he
  · cases he
  · cases hv

/-- The order compares groups and then values by code points. A query that is accepted is read as
the one canonical form of the parts that its words spell. Of two such queries the readings agree
exactly when their texts, their salary ranges and the kinds of their operators with each value do,
in the order of the words. -/
theorem parse_canonical_fibres :
    (∀ p q : Part, p.compare q ≠ .gt ↔
      p.group < q.group ∨ p.group = q.group ∧ p.orderText.NoLater q.orderText) ∧
    (∀ (q : Text) (ps : List Part), parse q = .ok ps →
      ∃ rs, Reads q.words rs ∧ ∀ l, Part.IsCanonicalForm rs l ↔ l = ps) ∧
    ∀ (q₁ q₂ : Text) (ps₁ ps₂ : List Part), parse q₁ = .ok ps₁ → parse q₂ = .ok ps₂ →
      ∃ rs₁ rs₂, Reads q₁.words rs₁ ∧ Reads q₂.words rs₂ ∧
        (parse q₁ = parse q₂ ↔
          Part.texts rs₁ = Part.texts rs₂ ∧ Part.ranges rs₁ = Part.ranges rs₂ ∧
            ∀ v, Part.kindsWith v rs₁ = Part.kindsWith v rs₂) := by
  refine ⟨fun p q => ?_, fun q ps h => ?_, fun q₁ q₂ ps₁ ps₂ h₁ h₂ => ?_⟩
  · rw [← Part.notAfter_iff, Part.notAfter, bne_iff_ne]
  · obtain ⟨rs, hr, rfl⟩ := parse_eq_ok_iff.mp h
    exact ⟨rs, hr, fun l => Part.isCanonicalForm_iff⟩
  · obtain ⟨rs₁, hr₁, rfl⟩ := parse_eq_ok_iff.mp h₁
    obtain ⟨rs₂, hr₂, rfl⟩ := parse_eq_ok_iff.mp h₂
    refine ⟨rs₁, rs₂, hr₁, hr₂, ?_⟩
    rw [h₁, h₂, Except.ok.injEq]
    exact Part.canonical_eq_canonical_iff_of_forall hr₁.lastMonth_not_mem hr₂.lastMonth_not_mem

theorem parse_canonical_fibres_reordered :
    let q₁ : Text := "site:x ( rust after:x ) 1..2".toList
    let q₂ : Text := "1..2 site:x OR rust after:x".toList
    let ps : List Part := [.text "rust".toList, .salary ⟨some 1, some 2⟩, .site "x".toList,
      .after "x".toList]
    (parse q₁ = .ok ps ∧ parse q₂ = .ok ps) ∧
      (∃ rs, Reads q₁.words rs ∧ ∀ l, Part.IsCanonicalForm rs l ↔ l = ps) ∧
      ∃ rs₁ rs₂, Reads q₁.words rs₁ ∧ Reads q₂.words rs₂ ∧
        (parse q₁ = parse q₂ ↔
          Part.texts rs₁ = Part.texts rs₂ ∧ Part.ranges rs₁ = Part.ranges rs₂ ∧
            ∀ v, Part.kindsWith v rs₁ = Part.kindsWith v rs₂) := by
  intro q₁ q₂ ps
  have h₁ : parse q₁ = .ok ps := parse_eq_ok_iff.mpr
    ⟨[.site "x".toList, .text "rust".toList, .after "x".toList, .salary ⟨some 1, some 2⟩], rfl,
      (Part.canonical_eq_of_forall_mem (by decide +kernel) (by decide +kernel)).symm⟩
  have h₂ : parse q₂ = .ok ps := parse_eq_ok_iff.mpr
    ⟨[.salary ⟨some 1, some 2⟩, .site "x".toList, .text "rust".toList, .after "x".toList], rfl,
      (Part.canonical_eq_of_forall_mem (by decide +kernel) (by decide +kernel)).symm⟩
  exact ⟨⟨h₁, h₂⟩, parse_canonical_fibres.2.1 q₁ ps h₁,
    parse_canonical_fibres.2.2 q₁ q₂ ps ps h₁ h₂⟩

end Query

end JobSearch
