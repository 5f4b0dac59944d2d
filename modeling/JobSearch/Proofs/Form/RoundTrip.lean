import JobSearch.Proofs.Form.Build

/-!
# Forms that come back

The JSON of a list of parts comes back as that list, but for two things that a form does not tell
apart from no input: an empty month, which comes back as no month, and an empty text, site or date,
for which the form is refused. What a form gives has neither, so it comes back from then on.
-/

namespace JobSearch.Form

open Json

theorem requiredString_eq_ok_iff {k : PartKind} {input : Option Value} {t : Text} :
    requiredString k input = .ok t ↔ input = some (.string t) ∧ t ≠ [] := by
  unfold requiredString
  split
  · next u =>
    by_cases hu : u = []
    · simp [hu, eq_comm]
    · have he : u.isEmpty = false := List.isEmpty_eq_false_iff.mpr hu
      simp only [he, Bool.false_eq_true, if_false, Except.ok.injEq, Option.some.injEq,
        Value.string.injEq]
      constructor
      · rintro rfl
        exact ⟨rfl, hu⟩
      · exact And.left
  · simp
  · simp
  · next v hv _ =>
    constructor
    · exact nofun
    · rintro ⟨hs, -⟩
      exact (hv t (Option.some.inj hs)).elim

/-- A month that a form names is not empty. -/
theorem ne_nil_of_optionalString {k : PartKind} {input : Option Value} {t : Text}
    (h : optionalString k input = .ok (some t)) : t ≠ [] := by
  unfold optionalString at h
  split at h
  case h_4 u =>
    rintro rfl
    cases u <;> cases h
  case h_5 n =>
    by_cases hn : isZero n = true <;> simp [hn] at h
  all_goals cases h

/-- No form gives a part that it would not take again, nor an empty month. -/
theorem lacksInput_and_submitted_of_lower {e : Entry} {p : Part} (h : e.lower = .ok p) :
    p.lacksInput = false ∧ p.submitted = p := by
  have hempty {t : Text} (ht : t ≠ []) : t.isEmpty = false := List.isEmpty_eq_false_iff.mpr ht
  unfold Entry.lower at h
  split at h
  case h_5 =>
    obtain ⟨input, hi, rfl⟩ := map_eq_ok_iff.mp h
    refine ⟨rfl, ?_⟩
    cases input with
    | none => rfl
    | some t =>
      obtain ⟨c, r, rfl⟩ := List.exists_cons_of_ne_nil (ne_nil_of_optionalString hi)
      rfl
  case h_6 =>
    obtain ⟨range, -, rfl⟩ := map_eq_ok_iff.mp h
    exact ⟨rfl, rfl⟩
  case h_7 => cases h
  all_goals
    obtain ⟨t, ht, rfl⟩ := map_eq_ok_iff.mp h
    exact ⟨hempty (requiredString_eq_ok_iff.mp ht).2, rfl⟩

/-- Every part that a form gives is lowered from one of its entries. -/
theorem exists_lower_of_parts {t : Text} {ps : List Part} (h : parts t = .ok ps) :
    ∀ p ∈ ps, ∃ e : Entry, e.lower = .ok p := by
  intro p hp
  unfold parts at h
  split at h
  · cases h
  · next entries _ =>
    have hmem : Except.ok p ∈ entries.map Entry.lower := by
      rw [mapM_eq_ok_iff.mp h]
      exact List.mem_map_of_mem hp
    obtain ⟨e, -, he⟩ := List.mem_map.mp hmem
    exact ⟨e, he⟩

end JobSearch.Form

namespace JobSearch.Part

open Form

/-- Only an empty month comes back changed. -/
theorem submitted_eq_ite (p : Part) :
    p.submitted = if p = .lastMonth (some []) then .lastMonth none else p := by
  unfold submitted
  split
  · rfl
  · next h => rw [if_neg h]

theorem map_submitted_eq_self_iff {ps : List Part} :
    ps.map submitted = ps ↔ .lastMonth (some []) ∉ ps := by
  constructor
  · intro h hm
    rw [← h] at hm
    obtain ⟨p, -, hp⟩ := List.mem_map.mp hm
    rw [submitted_eq_ite] at hp
    split at hp
    · cases hp
    · contradiction
  · intro h
    have hid : ∀ p ∈ ps, p.submitted = id p := by
      intro p hp
      rw [submitted_eq_ite, if_neg]
      · rfl
      · rintro rfl
        exact h hp
    rw [List.map_congr_left hid, List.map_id]

/-- The JSON of a list of parts comes back as the list exactly if no part lacks its input and no
month is empty. An empty month comes back as none, the first part that lacks its input is the one
for which the form is refused, and what any form gives comes back as it is. -/
theorem parts_compact_listJson_boundary (ps : List Part) :
    (parts (listJson ps).compact = .ok ps ↔
      (∀ p ∈ ps, p.lacksInput = false) ∧ .lastMonth (some []) ∉ ps) ∧
    ((∀ p ∈ ps, p.lacksInput = false) → parts (listJson ps).compact =
      .ok (ps.map fun p => if p = .lastMonth (some []) then .lastMonth none else p)) ∧
    (∀ before p after, ps = before ++ p :: after → (∀ q ∈ before, q.lacksInput = false) →
      p.lacksInput = true →
      parts (listJson ps).compact = .error (.invalidInput p.kind .missing)) ∧
    ∀ (t : Text) (qs : List Part), parts t = .ok qs → parts (listJson qs).compact = .ok qs := by
  have hself {qs : List Part} : parts (listJson qs).compact = .ok qs ↔
      (∀ p ∈ qs, p.lacksInput = false) ∧ .lastMonth (some []) ∉ qs := by
    rw [Query.parts_compact_listJson_eq_ok_iff, eq_comm (a := qs), map_submitted_eq_self_iff]
  refine ⟨hself, fun h => ?_, fun before p after he hb hp => ?_, fun t qs h => ?_⟩
  · rw [← List.map_congr_left fun p _ => submitted_eq_ite p]
    exact Query.parts_compact_listJson_eq_ok_iff.mpr ⟨h, rfl⟩
  · rw [parts_compact_listJson, throughForm, mapM_eq_error_iff]
    refine ⟨before, p, after, he, fun q hq => ⟨q.submitted, ?_⟩, ?_⟩
    · simp only [hb q hq, Bool.false_eq_true, if_false]
    · simp only [hp, if_true]
  · have hl (q : Part) (hq : q ∈ qs) : q.lacksInput = false ∧ q.submitted = q := by
      obtain ⟨e, he⟩ := exists_lower_of_parts h q hq
      exact lacksInput_and_submitted_of_lower he
    apply hself.mpr
    refine ⟨fun q hq => (hl q hq).1, fun hm => ?_⟩
    cases (hl _ hm).2

/-- An empty month comes back as none; of an empty site and an empty text the first is refused; a
form in another layout gives parts that come back. -/
theorem parts_compact_listJson_boundary_empty :
    let month : List Part := [.text "a\"\\".toList, .lastMonth (some []), .salary ⟨none, some 7⟩]
    let lacking : List Part := [.text "a".toList, .site [], .text []]
    let form : Text :=
      " [ [\"last-month\", \"\"], \x7b\"input\": [1, null], \"type\": \"salary\"\x7d]".toList
    let given : List Part := [.lastMonth none, .salary ⟨some 1, none⟩]
    ((∀ p ∈ month, p.lacksInput = false) ∧ parts (listJson month).compact =
      .ok [.text "a\"\\".toList, .lastMonth none, .salary ⟨none, some 7⟩]) ∧
    (lacking = [.text "a".toList] ++ .site [] :: [.text []] ∧
      (∀ q ∈ [Part.text "a".toList], q.lacksInput = false) ∧ (Part.site []).lacksInput = true ∧
      parts (listJson lacking).compact = .error (.invalidInput .site .missing)) ∧
    parts form = .ok given ∧ parts (listJson given).compact = .ok given := by
  intro month lacking form given
  have hmonth : ∀ p ∈ month, p.lacksInput = false := by decide
  have hbefore : ∀ q ∈ [Part.text "a".toList], q.lacksInput = false := by decide
  have hform : parts form = .ok given := by decide +kernel
  exact ⟨⟨hmonth, (parts_compact_listJson_boundary month).2.1 hmonth⟩,
    ⟨rfl, hbefore, rfl,
      (parts_compact_listJson_boundary lacking).2.2.1 _ (.site []) [.text []] rfl hbefore rfl⟩,
    hform, (parts_compact_listJson_boundary given).2.2.2 form given hform⟩

end JobSearch.Part
