import Mathlib.Data.List.Infix
import JobSearch.Proofs.Part.Token

/-!
# The grammar of words

What a word may be is said here without the reader: it only groups other words, or it is two dots
between two bounds, or it holds no two dots and is free text or one of three operators. The reader
accepts exactly these words, with the part that each of them spells, and its error on any other word
shows the whole word.
-/

namespace JobSearch

/-- The side of a salary range spells this bound: nothing spells no bound. -/
def SalaryRange.SpellsBound (side : Text) : Option UInt64 → Prop
  | none => side = []
  | some n => side.SpellsNumber n.toNat

/-- A side of a salary range: nothing, or a natural number below 2^64. -/
def SalaryRange.IsBound (side : Text) : Prop :=
  side = [] ∨ ∃ n < Nat.pow 2 64, side.SpellsNumber n

namespace Part

/-- The kinds of the operators that a query may have. -/
def operatorKinds : List PartKind := [.after, .before, .site]

/-- A word of the grammar. -/
def IsToken (w : Text) : Prop :=
  w ∈ structuralTokens ∨
    (∃ low high, w = low ++ rangeDots ++ high ∧ SalaryRange.IsBound low ∧
      SalaryRange.IsBound high) ∨
    ¬ rangeDots <:+: w ∧ (':' ∉ w ∨ ∃ k ∈ operatorKinds, ∃ v, w = k.name ++ ':' :: v)

/-- The part that a word spells, or none if the word only groups others. -/
inductive Spells : Text → Option Part → Prop where
  /-- A word that only groups others. -/
  | structural {w : Text} (h : w ∈ structuralTokens) : Spells w none
  /-- A salary range carries the numbers of its two sides. -/
  | salary {low high : Text} {min max : Option UInt64} (hl : SalaryRange.SpellsBound low min)
    (hh : SalaryRange.SpellsBound high max) :
    Spells (low ++ rangeDots ++ high) (some (.salary ⟨min, max⟩))
  /-- Free text carries the whole word. -/
  | text {w : Text} (hs : w ∉ structuralTokens) (hd : ¬ rangeDots <:+: w) (hc : ':' ∉ w) :
    Spells w (some (.text w))
  /-- An operator carries everything after its colon. -/
  | operator {p : Part} {v : Text} (hv : p.operatorValue? = some v) (hd : ¬ rangeDots <:+: v) :
    Spells (p.kind.name ++ ':' :: v) (some p)

/-- The error that names a word outside the grammar. -/
def offence (w : Text) : QueryError :=
  if rangeDots <:+: w then .invalidSalary w else .unknownQueryPart w

end Part

namespace SalaryRange

theorem readBound_eq_ok_iff {token side : Text} {bound : Option UInt64} :
    readBound token side = .ok bound ↔ SpellsBound side bound := by
  rw [readBound]
  split
  · next he =>
    rw [List.isEmpty_iff] at he
    cases bound with
    | none => simp [SpellsBound, he]
    | some n =>
      have hn : ¬ side.SpellsNumber n.toNat := by
        rintro ⟨digits, rfl | rfl, hne, -⟩
        · exact hne he
        · cases he
      simp [SpellsBound, hn]
  · next he =>
    rw [List.isEmpty_iff] at he
    cases bound with
    | none => cases Text.toWord? side <;> simp [SpellsBound, he]
    | some n =>
      rw [SpellsBound, ← Text.toWord?_eq_some_iff]
      cases Text.toWord? side <;> simp

/-- A side that is no bound refuses the whole token. -/
theorem eq_invalidSalary_of_readBound {token side : Text} {e : QueryError}
    (h : readBound token side = .error e) : e = .invalidSalary token := by
  rw [readBound] at h
  split at h
  · cases h
  · split at h
    · cases h
    · exact (Except.error.inj h).symm

/-- The bounds below 2^64 are those that have a value of 64 bits. -/
theorem isBound_iff {side : Text} : IsBound side ↔ ∃ bound, SpellsBound side bound := by
  constructor
  · rintro (he | ⟨n, hn, hs⟩)
    · exact ⟨none, he⟩
    · refine ⟨some (UInt64.ofNat n), ?_⟩
      rwa [SpellsBound, UInt64.toNat_ofNat_of_lt' hn]
  · rintro ⟨_ | n, hs⟩
    · exact Or.inl hs
    · exact Or.inr ⟨n.toNat, n.toNat_lt, hs⟩

theorem SpellsBound.dot_not_mem {side : Text} {bound : Option UInt64}
    (h : SpellsBound side bound) : '.' ∉ side := by
  intro hm
  have hr : readBound side side = .ok bound := readBound_eq_ok_iff.mpr h
  rcases eq_plus_or_isDigit_of_readBound hr hm with he | hd
  · exact absurd he (by decide)
  · exact absurd hd (by decide)

/-- A range is read exactly from two bounds around two dots. -/
theorem ofToken_eq_ok_iff {w : Text} {r : SalaryRange} :
    ofToken w = .ok r ↔
      ∃ low high, w = low ++ rangeDots ++ high ∧ SpellsBound low r.min ∧
        SpellsBound high r.max := by
  constructor
  · intro h
    rw [ofToken] at h
    split at h
    · cases h
    · next low high hcut =>
      split at h
      · cases h
      · next min hmin =>
        split at h
        · cases h
        · next max hmax =>
          obtain rfl := Except.ok.inj h
          exact ⟨low, high, Text.eq_append_of_cutAt? hcut, readBound_eq_ok_iff.mp hmin,
            readBound_eq_ok_iff.mp hmax⟩
  · rintro ⟨low, high, rfl, hl, hh⟩
    have hcut : Text.cutAt? rangeDots (low ++ rangeDots ++ high) = some (low, high) :=
      Text.cutAt?_append hl.dot_not_mem
    simp only [ofToken, hcut, readBound_eq_ok_iff.mpr hl, readBound_eq_ok_iff.mpr hh]

theorem eq_invalidSalary_of_ofToken {w : Text} {e : QueryError} (h : ofToken w = .error e) :
    e = .invalidSalary w := by
  rw [ofToken] at h
  split at h
  · exact (Except.error.inj h).symm
  · split at h
    · next hmin =>
      obtain rfl := Except.error.inj h
      exact eq_invalidSalary_of_readBound hmin
    · split at h
      · next hmax =>
        obtain rfl := Except.error.inj h
        exact eq_invalidSalary_of_readBound hmax
      · cases h

end SalaryRange

namespace Part

theorem mem_operatorKinds {p : Part} {v : Text} (h : p.operatorValue? = some v) :
    p.kind ∈ operatorKinds := by
  cases p <;> cases h <;> simp [kind, operatorKinds]

theorem exists_of_mem_operatorKinds {k : PartKind} (h : k ∈ operatorKinds) (v : Text) :
    ∃ p : Part, p.kind = k ∧ p.operatorValue? = some v := by
  simp only [operatorKinds, List.mem_cons, List.not_mem_nil, or_false] at h
  rcases h with rfl | rfl | rfl
  · exact ⟨.after v, rfl, rfl⟩
  · exact ⟨.before v, rfl, rfl⟩
  · exact ⟨.site v, rfl, rfl⟩

/-- The words of the grammar are those that spell something. -/
theorem isToken_iff {w : Text} : IsToken w ↔ ∃ o, Spells w o := by
  constructor
  · rintro (hs | ⟨low, high, rfl, hl, hh⟩ | ⟨hd, hc | ⟨k, hk, v, rfl⟩⟩)
    · exact ⟨none, .structural hs⟩
    · obtain ⟨min, hmin⟩ := SalaryRange.isBound_iff.mp hl
      obtain ⟨max, hmax⟩ := SalaryRange.isBound_iff.mp hh
      exact ⟨_, .salary hmin hmax⟩
    · by_cases hs : w ∈ structuralTokens
      · exact ⟨none, .structural hs⟩
      · exact ⟨_, .text hs hd hc⟩
    · obtain ⟨p, rfl, hv⟩ := exists_of_mem_operatorKinds hk v
      exact ⟨_, .operator hv ((not_congr dots_isInfix_operator_iff).mp hd)⟩
  · rintro ⟨o, h⟩
    cases h with
    | structural hs => exact Or.inl hs
    | salary hl hh =>
      exact Or.inr (Or.inl ⟨_, _, rfl, SalaryRange.isBound_iff.mpr ⟨_, hl⟩,
        SalaryRange.isBound_iff.mpr ⟨_, hh⟩⟩)
    | text hs hd hc => exact Or.inr (Or.inr ⟨hd, Or.inl hc⟩)
    | operator hv hd =>
      exact Or.inr (Or.inr ⟨(not_congr dots_isInfix_operator_iff).mpr hd,
        Or.inr ⟨_, mem_operatorKinds hv, _, rfl⟩⟩)

/-- A word is read exactly as what it spells. -/
theorem ofToken_eq_ok_iff {w : Text} (hw : w ≠ []) {o : Option Part} :
    ofToken w = .ok o ↔ Spells w o := by
  constructor
  · intro h
    rcases ofToken_cases h with ⟨rfl, hs⟩ | ⟨rfl, hs, hd, hc⟩ | ⟨r, rfl, -, hr⟩ |
      ⟨p, v, rfl, hv, rfl, hd⟩
    · exact .structural (hs.resolve_left hw)
    · exact .text hs hd hc
    · obtain ⟨low, high, rfl, hl, hh⟩ := SalaryRange.ofToken_eq_ok_iff.mp hr
      exact .salary hl hh
    · exact .operator hv hd
  · intro h
    cases h with
    | structural hs => exact ofToken_of_structural hs
    | @salary low high min max hl hh =>
      have hr : SalaryRange.ofToken (low ++ rangeDots ++ high) = .ok ⟨min, max⟩ :=
        SalaryRange.ofToken_eq_ok_iff.mpr ⟨low, high, rfl, hl, hh⟩
      rw [ofToken_of_dots (List.infix_append ..), hr]
      rfl
    | text hs hd hc => exact ofToken_of_plain hw hs hd hc
    | operator hv hd => exact ofToken_of_operator hv hd

theorem exists_ofToken_eq_ok_iff {w : Text} (hw : w ≠ []) :
    (∃ o, ofToken w = .ok o) ↔ IsToken w := by
  rw [isToken_iff]
  exact exists_congr fun o => ofToken_eq_ok_iff hw

/-- The error on a word shows the whole word, as a salary range if it has two dots. -/
theorem eq_offence_of_ofToken {w : Text} {e : QueryError} (h : ofToken w = .error e) :
    e = offence w := by
  rw [ofToken] at h
  split at h
  · cases h
  · split at h
    · next hd =>
      rw [offence, if_pos (Text.contains_iff.mp hd)]
      cases hr : SalaryRange.ofToken w with
      | error d =>
        rw [hr] at h
        obtain rfl := Except.error.inj h
        exact SalaryRange.eq_invalidSalary_of_ofToken hr
      | ok r =>
        rw [hr] at h
        cases h
    · next hd =>
      rw [offence, if_neg ((not_congr Text.contains_iff).mp hd)]
      split at h
      · cases h
      · split at h
        · cases h
        · exact (Except.error.inj h).symm

/-- A word is refused exactly when it is none of the grammar, with the error that names it. -/
theorem ofToken_eq_error_iff {w : Text} (hw : w ≠ []) {e : QueryError} :
    ofToken w = .error e ↔ ¬ IsToken w ∧ e = offence w := by
  rw [← exists_ofToken_eq_ok_iff hw]
  cases h : ofToken w with
  | error d =>
    rw [← eq_offence_of_ofToken h]
    simp [eq_comm]
  | ok o => simp

end Part

end JobSearch
