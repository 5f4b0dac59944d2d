import JobSearch.Proofs.Part.Grammar
import JobSearch.Proofs.Query.Fingerprint
import JobSearch.Query.Shape
import Mathlib.Data.List.Forall2

/-!
# Which queries are accepted

A query is accepted exactly when every word belongs to the grammar, and then it is read as what its
words spell. Otherwise the first word outside the grammar is named, and nothing that is derived from
a query gets further than that.
-/

namespace JobSearch.Query

/-- A query is accepted as the canonical form of what its words spell, one by one. -/
theorem parse_eq_ok_iff_spells {q : Text} {ps : List Part} :
    parse q = .ok ps ↔
      ∃ os, List.Forall₂ Part.Spells q.words os ∧ ps = Part.canonical (os.filterMap id) := by
  have hm (os : List (Option Part)) :
      q.words.mapM Part.ofToken = .ok os ↔ List.Forall₂ Part.Spells q.words os := by
    rw [mapM_eq_ok_iff, ← List.forall₂_eq_eq_eq, List.forall₂_map_left_iff,
      List.forall₂_map_right_iff, List.forall₂_iff_get, List.forall₂_iff_get]
    refine and_congr_right fun _ => forall_congr' fun i => forall₂_congr fun hi _ => ?_
    exact Part.ofToken_eq_ok_iff (Text.ne_nil_of_mem_words (List.get_mem ..))
  rw [parse_eq_map, map_eq_ok_iff]
  exact exists_congr fun os => and_congr (hm os) eq_comm

theorem exists_parse_eq_ok_iff {q : Text} :
    (∃ ps, parse q = .ok ps) ↔ ∀ w ∈ q.words, Part.IsToken w := by
  have hp : (∃ ps, parse q = .ok ps) ↔ ∃ os, q.words.mapM Part.ofToken = .ok os := by
    simp only [parse_eq_map, map_eq_ok_iff]
    exact ⟨fun ⟨_, os, ho, _⟩ => ⟨os, ho⟩, fun ⟨os, ho⟩ => ⟨_, os, ho, rfl⟩⟩
  rw [hp, exists_mapM_eq_ok_iff]
  exact forall₂_congr fun w hw => Part.exists_ofToken_eq_ok_iff (Text.ne_nil_of_mem_words hw)

/-- A query is refused with the error that names its first word outside the grammar. -/
theorem parse_eq_error_iff {q : Text} {e : QueryError} :
    parse q = .error e ↔ ∃ before w after, q.words = before ++ w :: after ∧
      (∀ v ∈ before, Part.IsToken v) ∧ ¬ Part.IsToken w ∧ e = Part.offence w := by
  rw [parse_eq_map, map_eq_error_iff, mapM_eq_error_iff]
  refine exists_congr fun before => exists_congr fun w => exists_congr fun after =>
    and_congr_right fun hq => ?_
  have hne : ∀ v ∈ before ++ w :: after, v ≠ [] := fun v hv =>
    Text.ne_nil_of_mem_words (hq ▸ hv)
  have hb : (∀ v ∈ before, ∃ o, Part.ofToken v = .ok o) ↔ ∀ v ∈ before, Part.IsToken v :=
    forall₂_congr fun v hv => Part.exists_ofToken_eq_ok_iff (hne v (List.mem_append_left _ hv))
  rw [hb, Part.ofToken_eq_error_iff (hne w (by simp))]

/-- A query that is refused has neither a shape nor a fingerprint, for the same reason. -/
theorem shape_of_parse_eq_error {q : Text} {e : QueryError} (h : parse q = .error e) :
    shape q = .error e := by
  rw [shape, h]

/-- A query is accepted exactly when all its words belong to the grammar, as the canonical form of
the parts that they spell. Otherwise the error shows the first word that does not, as a salary range
if it has two dots and as an unknown part if not, and the shape and the fingerprint of the query
fail with it. -/
theorem parse_iff_grammar (q : Text) :
    ((∃ ps, parse q = .ok ps) ↔ ∀ w ∈ q.words, Part.IsToken w) ∧
    (∀ ps, parse q = .ok ps ↔
      ∃ os, List.Forall₂ Part.Spells q.words os ∧ ps = Part.canonical (os.filterMap id)) ∧
    (∀ e, parse q = .error e ↔ ∃ before w after, q.words = before ++ w :: after ∧
      (∀ v ∈ before, Part.IsToken v) ∧ ¬ Part.IsToken w ∧ e = Part.offence w) ∧
    ∀ e, parse q = .error e → shape q = .error e ∧ fingerprint q = .error e :=
  ⟨exists_parse_eq_ok_iff, fun _ => parse_eq_ok_iff_spells, fun _ => parse_eq_error_iff,
    fun _ h => ⟨shape_of_parse_eq_error h, fingerprint_eq_error_iff.mpr h⟩⟩

/-- The dots are cut at their first pair, so a third one makes the right side no bound. -/
theorem parse_iff_grammar_three_dots :
    let q : Text := "( +007..9 site:a:b OR 1...2 foo:x".toList
    let e : QueryError := .invalidSalary "1...2".toList
    parse q = .error e ∧ shape q = .error e ∧ fingerprint q = .error e := by
  intro q e
  have h : parse q = .error e := by decide +kernel
  exact ⟨h, (parse_iff_grammar q).2.2.2 e h⟩

end JobSearch.Query
