import JobSearch.Query
import JobSearch.Proofs.Part.Order
import JobSearch.Proofs.Part.Token
import JobSearch.Proofs.Results

/-!
# Reading and writing word by word

A query is read by its words alone: those that only group others are passed over and every other
word is one part, so readings of two lists of words are joined like the lists. Writing puts the
tokens of the parts next to each other, followed by the group of default sites if none of them
mentions such a site.
-/

namespace JobSearch

namespace Query

/-- The words `ws` are read as the parts `rs`: one part for each word that does not only group
others, in the same order. -/
def Reads (ws : List Text) (rs : List Part) : Prop :=
  (ws.filter fun w => !structuralTokens.contains w).map Part.ofToken = rs.map fun p => .ok (some p)

theorem reads_nil : Reads [] [] := rfl

theorem Reads.append {ws vs : List Text} {rs ss : List Part} (h : Reads ws rs)
    (h' : Reads vs ss) : Reads (ws ++ vs) (rs ++ ss) := by
  rw [Reads, List.filter_append, List.map_append, h, h', List.map_append]

/-- A word that only groups others is passed over. -/
theorem reads_cons_structural {w : Text} (h : w ∈ structuralTokens) {ws : List Text}
    {rs : List Part} : Reads (w :: ws) rs ↔ Reads ws rs := by
  rw [Reads, List.filter_cons_of_neg (by simpa using h), Reads]

/-- Any other word is read as one part. -/
theorem reads_cons {w : Text} (h : w ∉ structuralTokens) {ws : List Text} {rs : List Part} :
    Reads (w :: ws) rs ↔
      ∃ p ss, rs = p :: ss ∧ Part.ofToken w = .ok (some p) ∧ Reads ws ss := by
  rw [Reads, List.filter_cons_of_pos (by simpa using h), List.map_cons]
  constructor
  · cases rs with
    | nil => exact fun he => by cases he
    | cons p ss => exact fun he => ⟨p, ss, rfl, (List.cons.inj he).1, (List.cons.inj he).2⟩
  · rintro ⟨p, ss, rfl, hp, hs⟩
    rw [List.map_cons, hp, hs]

/-- A word that carries a part does not only group others. -/
theorem not_mem_structuralTokens {w : Text} {p : Part} (h : Part.ofToken w = .ok (some p)) :
    w ∉ structuralTokens := by
  intro hs
  rw [Part.ofToken_of_structural hs] at h
  cases h

theorem reads_singleton {w : Text} {p : Part} (h : Part.ofToken w = .ok (some p)) :
    Reads [w] [p] :=
  (reads_cons (not_mem_structuralTokens h)).mpr ⟨p, [], rfl, h, reads_nil⟩

/-- Readings of pieces are joined like the pieces. -/
theorem reads_flatMap {xs : List α} {f : α → List Text} {g : α → List Part}
    (h : ∀ x ∈ xs, Reads (f x) (g x)) : Reads (xs.flatMap f) (xs.flatMap g) := by
  induction xs with
  | nil => exact reads_nil
  | cons x xs ih =>
    rw [List.flatMap_cons, List.flatMap_cons]
    exact (h x (List.mem_cons_self ..)).append (ih fun y hy => h y (List.mem_cons_of_mem _ hy))

/-- Words are left out of a reading together with the parts that they spell. -/
theorem Reads.filter {ws : List Text} {rs : List Part} (h : Reads ws rs) {f : Text → Bool}
    {g : Part → Bool} (hfg : ∀ w p, Part.ofToken w = .ok (some p) → f w = g p) :
    Reads (ws.filter f) (rs.filter g) := by
  induction ws generalizing rs with
  | nil =>
    obtain rfl := List.map_eq_nil_iff.mp h.symm
    exact reads_nil
  | cons w ws ih =>
    by_cases hs : w ∈ structuralTokens
    · have hr := ih ((reads_cons_structural hs).mp h)
      rw [List.filter_cons]
      split
      · exact (reads_cons_structural hs).mpr hr
      · exact hr
    · obtain ⟨p, ss, rfl, hp, hss⟩ := (reads_cons hs).mp h
      rw [List.filter_cons, List.filter_cons, hfg w p hp]
      split
      · exact (reads_cons hs).mpr ⟨p, ss.filter g, rfl, hp, ih hss⟩
      · exact ih hss

/-- Every part that is read is spelled by a word. -/
theorem Reads.exists_word {ws : List Text} {rs : List Part} (h : Reads ws rs) {p : Part}
    (hp : p ∈ rs) : ∃ w ∈ ws, Part.ofToken w = .ok (some p) := by
  have hm : Except.ok (some p) ∈
      (ws.filter fun w => !structuralTokens.contains w).map Part.ofToken := by
    rw [h]
    exact List.mem_map_of_mem hp
  obtain ⟨w, hw, he⟩ := List.mem_map.mp hm
  exact ⟨w, (List.mem_filter.mp hw).1, he⟩

/-- Every word that does not only group others spells a part that is read. -/
theorem Reads.exists_part {ws : List Text} {rs : List Part} (h : Reads ws rs) {w : Text}
    (hw : w ∈ ws) (hs : w ∉ structuralTokens) : ∃ p ∈ rs, Part.ofToken w = .ok (some p) := by
  have hm : Part.ofToken w ∈ rs.map fun p => Except.ok (some p) := by
    rw [← h]
    exact List.mem_map_of_mem (List.mem_filter.mpr ⟨hw, by simpa using hs⟩)
  obtain ⟨p, hp, he⟩ := List.mem_map.mp hm
  exact ⟨p, hp, he.symm⟩

private theorem reads_iff {ws : List Text} (hw : ∀ w ∈ ws, w ≠ []) {rs : List Part} :
    Reads ws rs ↔
      ∃ os : List (Option Part), ws.map Part.ofToken = os.map .ok ∧ os.filterMap id = rs := by
  induction ws generalizing rs with
  | nil =>
    constructor
    · intro h
      exact ⟨[], rfl, (List.map_eq_nil_iff.mp h.symm).symm⟩
    · rintro ⟨os, ho, rfl⟩
      rw [List.map_eq_nil_iff.mp ho.symm]
      exact reads_nil
  | cons w ws ih =>
    have ih := fun {rs} => @ih (fun v hv => hw v (List.mem_cons_of_mem _ hv)) rs
    have hne := hw w (List.mem_cons_self ..)
    by_cases hs : w ∈ structuralTokens
    · have hn := Part.ofToken_of_structural hs
      rw [reads_cons_structural hs, ih]
      constructor
      · rintro ⟨os, ho, hr⟩
        exact ⟨none :: os, by rw [List.map_cons, List.map_cons, hn, ho], hr⟩
      · rintro ⟨_ | ⟨o, os⟩, ho, hr⟩
        · cases ho
        · rw [List.map_cons, List.map_cons, hn] at ho
          obtain ⟨he, hos⟩ := List.cons.inj ho
          obtain rfl := Except.ok.inj he
          exact ⟨os, hos, hr⟩
    · rw [reads_cons hs]
      constructor
      · rintro ⟨p, ss, rfl, hp, hr⟩
        obtain ⟨os, ho, rfl⟩ := ih.mp hr
        exact ⟨some p :: os, by rw [List.map_cons, List.map_cons, hp, ho], rfl⟩
      · rintro ⟨_ | ⟨o, os⟩, ho, hr⟩
        · cases ho
        · rw [List.map_cons, List.map_cons] at ho
          obtain ⟨hp, hos⟩ := List.cons.inj ho
          cases o with
          | none => exact absurd ((Part.ofToken_eq_ok_none_iff hne).mp hp) hs
          | some p => exact ⟨p, os.filterMap id, hr.symm, hp, ih.mpr ⟨os, hos, rfl⟩⟩

/-- Reading a query is reading its words, and one failure is the failure of the whole. -/
theorem parse_eq_map (q : Text) :
    parse q = (q.words.mapM Part.ofToken).map fun os => Part.canonical (os.filterMap id) := by
  rw [parse]
  cases q.words.mapM Part.ofToken <;> rfl

/-- A query is accepted exactly when its words are read, and its parts are those read, in canonical
order. -/
theorem parse_eq_ok_iff {q : Text} {ps : List Part} :
    parse q = .ok ps ↔ ∃ rs, Reads q.words rs ∧ ps = Part.canonical rs := by
  have hr := fun {rs} => @reads_iff q.words (fun w hw => Text.ne_nil_of_mem_words hw) rs
  rw [parse_eq_map, map_eq_ok_iff]
  constructor
  · rintro ⟨os, ho, rfl⟩
    exact ⟨os.filterMap id, hr.mpr ⟨os, mapM_eq_ok_iff.mp ho, rfl⟩, rfl⟩
  · rintro ⟨rs, h, rfl⟩
    obtain ⟨os, ho, rfl⟩ := hr.mp h
    exact ⟨os, mapM_eq_ok_iff.mpr ho, rfl⟩

/-- The parts of a query are those read from its words. -/
theorem parse_of_reads {q : Text} {rs : List Part} (h : Reads q.words rs) :
    parse q = .ok (Part.canonical rs) :=
  parse_eq_ok_iff.mpr ⟨rs, h, rfl⟩

/-- The parts of a query are those in order that keep the parts read of each key as they came. -/
theorem parse_of_reads_of_ordered {q : Text} {ps : List Part} (rs : List Part)
    (h : Reads q.words rs) (ho : Part.Ordered ps)
    (hf : ∀ p ∈ rs ++ ps, ps.filter p.sameKey = rs.filter p.sameKey) : parse q = .ok ps :=
  parse_eq_ok_iff.mpr ⟨rs, h, (Part.canonical_eq_of_forall_mem ho hf).symm⟩

end Query

end JobSearch
