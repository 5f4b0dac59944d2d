import JobSearch.Query.Shape
import JobSearch.Proofs.Part.Json
import JobSearch.Proofs.Query.Content
import JobSearch.Proofs.Query.Sweep

/-!
# What a sweep keeps of a query

The words that a sweep takes out of a query are exactly those that are read as date bounds, so of
the parts of the query only its date bounds are exchanged for those of a month. Nothing else of a
query changes, and no two months of a sweep give the same parts.
-/

namespace JobSearch

namespace Part

/-- A part that bounds dates on one side. -/
def isDateBound : Part → Bool
  | .after _ => true
  | .before _ => true
  | _ => false

/-- The parts that are no date bounds. -/
def undated (ps : List Part) : List Part := ps.filter fun p => !p.isDateBound

/-- The bounds of a month as parts. -/
def bounds (after before : Date) : List Part :=
  [.before (operatorDate before), .after (operatorDate after)]

@[simp] theorem undated_bounds (after before : Date) : undated (bounds after before) = [] := rfl

@[simp] theorem undated_append (ps qs : List Part) :
    undated (ps ++ qs) = undated ps ++ undated qs := List.filter_append ..

@[simp] theorem undated_undated (ps : List Part) : undated (undated ps) = undated ps := by
  simp only [undated, List.filter_filter, Bool.and_self]

@[simp] theorem undated_canonical (ps : List Part) :
    undated (canonical ps) = canonical (undated ps) := filter_canonical _ ps

theorem colon_mem_of_isDateToken {w : Text} (h : isDateToken w = true) : ':' ∈ w := by
  have hmem (k : PartKind) (hp : operatorStart k.name <+: w) : ':' ∈ w :=
    hp.subset (List.mem_append_right _ (List.mem_singleton_self ':'))
  exact (Query.isDateToken_iff.mp h).elim (hmem .before) (hmem .after)

/-- A word is a date operator exactly when it is read as a date bound. -/
theorem isDateToken_eq_isDateBound {w : Text} {p : Part} (h : ofToken w = .ok (some p)) :
    isDateToken w = p.isDateBound := by
  rcases ofToken_cases_some h with ⟨rfl, -, -, hc⟩ | ⟨r, rfl, -, hr⟩ | ⟨v, hv, rfl, -⟩
  · exact Bool.eq_false_iff.mpr fun hd => hc (colon_mem_of_isDateToken hd)
  · refine Bool.eq_false_iff.mpr fun hd => ?_
    have hm := SalaryRange.mem_of_ofToken hr (colon_mem_of_isDateToken hd)
    exact absurd hm (by decide)
  · have hw : p.kind.name ++ ':' :: v = operatorStart p.kind.name ++ v := by
      rw [operatorStart, List.append_assoc, List.singleton_append]
    rw [Bool.eq_iff_iff, hw, Query.isDateToken_iff, Query.operatorStart_prefix_iff,
      Query.operatorStart_prefix_iff]
    cases p <;> simp [kind, isDateBound]

end Part

namespace Shape

theorem salaryOf_undated (ps : List Part) : salaryOf (Part.undated ps) = salaryOf ps := by
  induction ps with
  | nil => rfl
  | cons p ps ih =>
    cases p with
    | after v => exact ih
    | before v => exact ih
    | text t => exact ih
    | site v => exact ih
    | lastMonth m => exact ih
    | salary r =>
      have hcons : Part.undated (.salary r :: ps) = .salary r :: Part.undated ps := rfl
      rw [hcons, salaryOf, salaryOf, ih]

/-- Date bounds are not part of a shape. -/
theorem ofParts_undated (ps : List Part) : ofParts (Part.undated ps) = ofParts ps := by
  have hterms : termsOf (Part.undated ps) = termsOf ps := by
    rw [Part.undated, termsOf, List.filterMap_filter, termsOf]
    congr 1
    funext p
    cases p <;> rfl
  have hsites : sitesOf (Part.undated ps) = sitesOf ps := by
    rw [Part.undated, sitesOf, List.filterMap_filter, sitesOf]
    congr 1
    funext p
    cases p <;> rfl
  rw [ofParts, hterms, hsites, salaryOf_undated, ofParts]

/-- The shape of sorted parts does not change when their date bounds are exchanged. -/
theorem ofParts_canonical_undated_append (ps : List Part) (after before : Date) :
    ofParts (Part.canonical (Part.undated ps ++ Part.bounds after before)) =
      ofParts (Part.canonical ps) := by
  rw [← ofParts_undated, ← ofParts_undated (Part.canonical ps)]
  simp only [Part.undated_canonical, Part.undated_append, Part.undated_undated,
    Part.undated_bounds, List.append_nil]

end Shape

namespace Query

theorem reads_boundToken {k : PartKind} {p : Part} {d : Date}
    (hp : p.operatorValue? = some (operatorDate d)) (hk : p.kind = k) :
    Reads [boundToken k d] [p] := by
  subst hk
  refine reads_singleton ?_
  rw [boundToken, operatorStart, List.append_assoc, List.singleton_append]
  exact Part.ofToken_of_operator hp (Part.not_dots_isInfix_operatorDate d)

/-- A query bounded to a month is read as its parts with other date bounds. -/
theorem reads_between_stripDates {q : Text} {rs : List Part} (h : Reads q.words rs)
    (after before : Date) :
    Reads (between (stripDates q) after before).words
      (Part.undated rs ++ Part.bounds after before) := by
  rw [words_between_stripDates]
  have hu : Reads (undated q) (Part.undated rs) := h.filter fun w p hp => by
    rw [Part.isDateToken_eq_isDateBound hp]
  have hb : Reads [boundToken .before before] [.before (operatorDate before)] :=
    reads_boundToken rfl rfl
  have ha : Reads [boundToken .after after] [.after (operatorDate after)] :=
    reads_boundToken rfl rfl
  exact hu.append (hb.append ha)

theorem parse_between_stripDates {q : Text} {ps : List Part} (h : parse q = .ok ps)
    (after before : Date) :
    parse (between (stripDates q) after before) =
      .ok (Part.canonical (Part.undated ps ++ Part.bounds after before)) := by
  obtain ⟨rs, hr, rfl⟩ := parse_eq_ok_iff.mp h
  rw [parse_of_reads (reads_between_stripDates hr after before), Part.undated_canonical,
    Part.canonical_canonical_append]

/-- Bounding a query to a month does not change its shape. -/
theorem shape_between_stripDates {q : Text} {ps : List Part} (h : parse q = .ok ps)
    (after before : Date) : shape (between (stripDates q) after before) = shape q := by
  obtain ⟨rs, hr, rfl⟩ := parse_eq_ok_iff.mp h
  rw [shape, parse_of_reads (reads_between_stripDates hr after before), shape, h]
  exact Shape.ofParts_canonical_undated_append rs after before

end Query

namespace Part

/-- The parts of a month tell which month it is. -/
theorem monthIndex_eq_of_canonical_eq {ps : List Part} {a b c d : Date}
    (h : canonical (undated ps ++ bounds a b) = canonical (undated ps ++ bounds c d)) :
    b.monthIndex = d.monthIndex := by
  have hm : .before (operatorDate b) ∈ canonical (undated ps ++ bounds a b) :=
    mem_canonical.mpr (List.mem_append_right _ (List.mem_cons_self ..))
  rw [h, mem_canonical, List.mem_append] at hm
  rcases hm with hm | hm
  · exact absurd (List.mem_filter.mp hm).2 (by simp [isDateBound])
  · rw [bounds, List.mem_cons, List.mem_singleton, Part.before.injEq] at hm
    exact operatorDate_eq_iff.mp (hm.resolve_right (by simp))

end Part

namespace Query

/-- A sweep of a query that is accepted exchanges its date bounds for those of each month and leaves
all other parts as they are: every variation is read as the parts of the query without its date
bounds and, behind them, the two bounds of the month, put in canonical order. It has the shape of
the query. The parts of two months differ, and so do the JSON texts of these parts. -/
theorem parse_variations {cal : Calendar} {q : Text} {count : Nat} {ps : List Part}
    {vs : List Variation} (hq : parse q = .ok ps) (hv : variations cal q count = .ok vs) :
    ∃ months : Nat → Date,
      (∀ i ≤ count, Date.firstOfIndex? ((cal.resolve (some q)).monthIndex - i) =
        some (months i)) ∧
      vs.length = count ∧
      ∀ i v, vs[i]? = some v →
        parse v.query = .ok (Part.canonical ((ps.filter fun p => !p.isDateBound) ++
          [.before (operatorDate (months i)), .after (operatorDate (months (i + 1)))])) ∧
        shape v.query = shape q ∧
        ∀ j w, vs[j]? = some w → i ≠ j → ∀ ps₁ ps₂, parse v.query = .ok ps₁ →
          parse w.query = .ok ps₂ →
            ps₁ ≠ ps₂ ∧ (Part.listJson ps₁).compact ≠ (Part.listJson ps₂).compact := by
  obtain ⟨months, hm, rfl⟩ := exists_bounds_of_variations hv
  refine ⟨months, hm, by rw [List.length_map, List.length_range], fun i v hi => ?_⟩
  obtain ⟨hi, rfl⟩ := lt_and_eq_of_getElem? hi
  have hparse := parse_between_stripDates hq (months (i + 1)) (months i)
  refine ⟨hparse, shape_between_stripDates hq _ _, fun j w hj hij ps₁ ps₂ h₁ h₂ => ?_⟩
  obtain ⟨hj, rfl⟩ := lt_and_eq_of_getElem? hj
  have hne : ps₁ ≠ ps₂ := by
    rintro rfl
    rw [parse_between_stripDates hq] at h₂
    rw [hparse, ← h₂] at h₁
    have hidx := Part.monthIndex_eq_of_canonical_eq (Except.ok.inj h₁)
    have hii := (Date.firstOfIndex?_eq_some_iff.mp (hm i (by omega))).1
    have hjj := (Date.firstOfIndex?_eq_some_iff.mp (hm j (by omega))).1
    omega
  exact ⟨hne, fun h => hne (Part.compact_listJson_inj h)⟩

/-- A site with the value of a bound stays in front of that bound. -/
theorem parse_variations_site_before :
    let cal : Calendar := ⟨fun _ _ => none, ⟨2024, 7, 20, by decide⟩⟩
    let q : Text := "after:2020-01-01 site:2024-07-01 1.. rust".toList
    let ps : List Part := [.text "rust".toList, .salary ⟨some 1, none⟩,
      .after "2020-01-01".toList, .site "2024-07-01".toList]
    let vs : List Variation :=
      [⟨"June, 2024".toList,
          "site:2024-07-01 1.. rust before:2024-07-01 after:2024-06-01".toList⟩,
        ⟨"May, 2024".toList,
          "site:2024-07-01 1.. rust before:2024-06-01 after:2024-05-01".toList⟩]
    (parse q = .ok ps ∧ variations cal q 2 = .ok vs) ∧
      ∃ months : Nat → Date,
        Date.firstOfIndex? (12 * 2024 + 6) = some (months 0) ∧
        ∃ v, vs[0]? = some v ∧
          parse v.query = .ok (Part.canonical ((ps.filter fun p => !p.isDateBound) ++
            [.before (operatorDate (months 0)), .after (operatorDate (months 1))])) ∧
          shape v.query = shape q := by
  intro cal q ps vs
  have hq : parse q = .ok ps := parse_eq_ok_iff.mpr
    ⟨[.after "2020-01-01".toList, .site "2024-07-01".toList, .salary ⟨some 1, none⟩,
      .text "rust".toList], rfl,
      (Part.canonical_eq_of_forall_mem (by decide +kernel) (by decide +kernel)).symm⟩
  have hv : variations cal q 2 = .ok vs := by decide +kernel
  have hm : (cal.resolve (some q)).monthIndex = 12 * 2024 + 6 := by decide +kernel
  obtain ⟨months, hb, -, hkept⟩ := parse_variations hq hv
  rw [hm] at hb
  obtain ⟨hparse, hshape, -⟩ := hkept 0 _ rfl
  exact ⟨⟨hq, hv⟩, months, hb 0 (by decide), _, rfl, hparse, hshape⟩

end Query

end JobSearch
