import JobSearch.Proofs.Form.Entry
import JobSearch.Proofs.Query.Writing

/-!
# Building through a form

A form and the writer of queries check their input apart from each other. A form is stricter on
nothing that could be written and laxer only where the writer refuses, and what it changes the
writer does not tell apart, so a list of parts is built to one and the same query either way.
-/

namespace JobSearch.Query

/-- A query is written from tokens alone. -/
theorem build_map {cal : Calendar} {f : Part → Part} (hf : ∀ p, (f p).token cal = p.token cal)
    (ps : List Part) : build cal (ps.map f) = build cal ps := by
  have hm : (ps.map f).mapM (Part.token cal) = ps.mapM (Part.token cal) := by
    rw [List.mapM_map]
    exact congrArg (fun g => ps.mapM g) (funext hf)
  rw [build, build, hm]

/-- A form takes the JSON of a list of parts exactly when none of them lacks an input. -/
theorem throughForm_eq_ok_iff {ps qs : List Part} :
    Part.throughForm ps = .ok qs ↔
      (∀ p ∈ ps, p.lacksInput = false) ∧ qs = ps.map Part.submitted := by
  rw [Part.throughForm, mapM_eq_ok_iff]
  induction ps generalizing qs with
  | nil => cases qs <;> simp
  | cons p ps ih =>
    cases qs with
    | nil => simp
    | cons q qs =>
      rw [List.map_cons, List.map_cons, List.map_cons, List.cons.injEq, List.cons.injEq, ih,
        List.forall_mem_cons]
      cases p.lacksInput with
      | false =>
        simp only [Bool.false_eq_true, if_false, Except.ok.injEq, true_and, eq_comm (a := q)]
        exact and_left_comm
      | true => simp

theorem parts_compact_listJson_eq_ok_iff {ps qs : List Part} :
    Form.parts (Part.listJson ps).compact = .ok qs ↔
      (∀ p ∈ ps, p.lacksInput = false) ∧ qs = ps.map Part.submitted := by
  rw [Part.parts_compact_listJson, throughForm_eq_ok_iff]

/-- Either a form gives back parts that are written as the same query, or the form is refused, and
then the parts are not written directly either. -/
theorem throughForm_cases (cal : Calendar) (ps : List Part) :
    (∃ qs, Part.throughForm ps = .ok qs ∧ build cal qs = build cal ps) ∨
      (∃ e, Part.throughForm ps = .error e) ∧ ∃ e, build cal ps = .error e := by
  by_cases hl : ∀ p ∈ ps, p.lacksInput = false
  · exact Or.inl ⟨_, throughForm_eq_ok_iff.mpr ⟨hl, rfl⟩, build_map (Part.token_submitted cal) ps⟩
  · right
    constructor
    · cases h : Part.throughForm ps with
      | error e => exact ⟨e, rfl⟩
      | ok qs => exact absurd (throughForm_eq_ok_iff.mp h).1 hl
    · cases h : build cal ps with
      | error e => exact ⟨e, rfl⟩
      | ok s =>
        refine absurd (fun p hp => ?_) hl
        rw [← Bool.not_eq_true]
        intro hlacks
        exact Part.token_ne_ok_of_lacksInput hlacks cal _ ((build_eq_ok_iff.mp h).1 p hp)

/-- Whatever the parts hold, they are written as a query directly exactly when their JSON is
accepted as a form and what it gives is written as that query. -/
theorem build_iff_build_submitted (cal : Calendar) (ps : List Part) (s : Text) :
    build cal ps = .ok s ↔
      ∃ qs, Form.parts (Part.listJson ps).compact = .ok qs ∧ build cal qs = .ok s := by
  have hsubmitted : build cal (ps.map Part.submitted) = build cal ps :=
    build_map (Part.token_submitted cal) ps
  constructor
  · intro h
    refine ⟨ps.map Part.submitted, parts_compact_listJson_eq_ok_iff.mpr ⟨?_, rfl⟩, ?_⟩
    · intro p hp
      rw [← Bool.not_eq_true]
      intro hl
      exact Part.token_ne_ok_of_lacksInput hl cal _ ((build_eq_ok_iff.mp h).1 p hp)
    · rw [hsubmitted, h]
  · rintro ⟨qs, hq, h⟩
    obtain ⟨-, rfl⟩ := parts_compact_listJson_eq_ok_iff.mp hq
    rwa [hsubmitted] at h

end JobSearch.Query
