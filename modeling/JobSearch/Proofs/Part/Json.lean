import JobSearch.Part.Json
import JobSearch.Proofs.Json.Compact
import JobSearch.Proofs.Part.Token

/-!
# The JSON of parts determines them

Every kind of part has its own type, an absent bound or text is a `null` that no number and no
string is, and the length of the array of bounds tells whether there is an upper one. The compact
text of a list of parts is therefore the text of that list alone.
-/

namespace JobSearch

theorem SalaryRange.boundJson_inj {a b : Option UInt64} (h : boundJson a = boundJson b) :
    a = b := by
  cases a <;> cases b <;> cases h <;> rfl

theorem SalaryRange.json_inj {r s : SalaryRange} (h : r.json = s.json) : r = s := by
  obtain ⟨rmin, rmax⟩ := r
  obtain ⟨smin, smax⟩ := s
  cases rmax <;> cases smax <;> simp only [json, Json.Value.array.injEq, List.cons.injEq,
    reduceCtorEq, and_true, and_false, Json.Value.number.injEq, Json.Number.natural.injEq] at h
  · rw [boundJson_inj h]
  · rw [boundJson_inj h.1, h.2]

namespace Part

/-- The object of a part determines the part. -/
theorem json_inj {p q : Part} (h : p.json = q.json) : p = q := by
  simp only [json, Json.Value.object.injEq, List.cons.injEq, Prod.mk.injEq, true_and, and_true,
    Json.Value.string.injEq, PartKind.name_inj] at h
  obtain ⟨hk, hi⟩ := h
  cases p <;> cases q <;> cases hk
  case lastMonth.lastMonth a b =>
    cases a <;> cases b <;> cases hi <;> rfl
  case salary.salary r s => rw [SalaryRange.json_inj hi]
  all_goals
    cases hi
    rfl

theorem fits_boundJson (bound : Option UInt64) : (SalaryRange.boundJson bound).Fits 0 := by
  cases bound with
  | none => exact .null
  | some n => exact .natural n

theorem fits_inputJson (p : Part) : p.inputJson.Fits 1 := by
  cases p with
  | lastMonth input => cases input with
    | none => exact .null
    | some t => exact .string t
  | salary r =>
    obtain ⟨min, max⟩ := r
    cases max with
    | none => exact .array (by simpa using fits_boundJson min)
    | some n => exact .array (by simpa using ⟨fits_boundJson min, .natural n⟩)
  | text t => exact .string t
  | site t => exact .string t
  | after t => exact .string t
  | before t => exact .string t

/-- The array of a list of parts nests to three levels and holds natural numbers only. -/
theorem fits_listJson (ps : List Part) : (listJson ps).Fits 3 := by
  refine .array fun v hv => ?_
  obtain ⟨p, -, rfl⟩ := List.mem_map.mp hv
  refine .object ?_
  simpa using ⟨.string p.kind.name, p.fits_inputJson⟩

/-- The compact text of a list of parts determines the list. -/
theorem compact_listJson_inj {ps qs : List Part}
    (h : (listJson ps).compact = (listJson qs).compact) : ps = qs := by
  have hj := Json.Value.compact_inj (fits_listJson ps) (fits_listJson qs) h
  exact (List.map_inj_right fun p q => json_inj).mp (Json.Value.array.inj hj)

end Part

end JobSearch
