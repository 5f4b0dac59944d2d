import Mathlib.Data.List.Infix
import JobSearch.Part.Token
import JobSearch.Proofs.Text.Number
import JobSearch.Proofs.Text.Search
import JobSearch.Proofs.Text.Words

/-!
# The words that spell a part

A word is read as a text, as a salary range or as an operator, or it only groups other words. The
dots of a range decide before the colon of an operator does. What is written for a part is read back
as that part, unless its text or its value looks like something else.
-/

namespace JobSearch

/-- Kinds are told apart by their names. -/
theorem PartKind.name_inj {j k : PartKind} : j.name = k.name ↔ j = k :=
  ⟨fun h => Option.some.inj (by rw [← ofName?_name j, h, ofName?_name k]), fun h => h ▸ rfl⟩

theorem PartKind.colon_not_mem_name (k : PartKind) : ':' ∉ k.name := by
  cases k <;> decide

theorem PartKind.dot_not_mem_name (k : PartKind) : '.' ∉ k.name := by
  cases k <;> decide

theorem PartKind.isWord_name (k : PartKind) : Text.IsWord k.name := by
  cases k <;> decide

namespace SalaryRange

/-- A bound in digits; an absent bound is written as nothing. -/
def boundText : Option UInt64 → Text
  | none => []
  | some n => Text.ofNat n.toNat

/-- A written bound is read back. -/
theorem readBound_boundText (token : Text) (bound : Option UInt64) :
    readBound token (boundText bound) = .ok bound := by
  cases bound with
  | none => rfl
  | some n =>
    have he : (Text.ofNat n.toNat).isEmpty = false :=
      List.isEmpty_eq_false_iff.mpr (Text.ofNat_ne_nil _)
    simp only [readBound, boundText, he, Bool.false_eq_true, if_false, Text.toWord?_ofNat]

theorem isDigit_of_mem_boundText {bound : Option UInt64} {c : Char} (h : c ∈ boundText bound) :
    c.isDigit = true := by
  cases bound with
  | none => cases h
  | some n => exact Text.isDigit_of_mem_ofNat h

/-- A range can be written: it has a lower bound, and its upper bound is not above the ceiling. -/
def Writable (r : SalaryRange) : Prop :=
  r.min ≠ none ∧ ∀ max, r.max = some max → max.toNat ≤ salaryCeiling

/-- Exactly the ranges with a lower bound and no excessive upper bound are written, as their bounds
around two dots. -/
theorem token_eq_ok_iff {r : SalaryRange} {t : Text} :
    r.token = .ok t ↔ r.Writable ∧ t = boundText r.min ++ rangeDots ++ boundText r.max := by
  obtain ⟨min, max⟩ := r
  cases min with
  | none => simp [token, Writable]
  | some min =>
    cases max with
    | none => simp [token, Writable, boundText, eq_comm]
    | some max =>
      by_cases h : salaryCeiling < max.toNat
      · simp [token, Writable, h, Nat.not_le.mpr h]
      · simp [token, Writable, h, Nat.not_lt.mp h, boundText, eq_comm]

/-- A written range is read back. -/
theorem ofToken_token {r : SalaryRange} {t : Text} (h : r.token = .ok t) : ofToken t = .ok r := by
  obtain ⟨-, rfl⟩ := token_eq_ok_iff.mp h
  have hd : '.' ∉ boundText r.min := fun hm => absurd (isDigit_of_mem_boundText hm) (by decide)
  have hc : Text.cutAt? rangeDots (boundText r.min ++ rangeDots ++ boundText r.max) =
      some (boundText r.min, boundText r.max) := Text.cutAt?_append hd
  simp only [ofToken, hc, readBound_boundText]

/-- A written range is one word. -/
theorem isWord_of_token {r : SalaryRange} {t : Text} (h : r.token = .ok t) : Text.IsWord t := by
  obtain ⟨-, rfl⟩ := token_eq_ok_iff.mp h
  refine ⟨by simp [rangeDots], fun c hc => ?_⟩
  rw [List.mem_append, List.mem_append] at hc
  rcases hc with (hc | hc) | hc
  · exact Text.not_isBlank_of_isDigit (isDigit_of_mem_boundText hc)
  · have hd : Text.IsWord rangeDots := by decide
    exact hd.2 c hc
  · exact Text.not_isBlank_of_isDigit (isDigit_of_mem_boundText hc)

/-- A bound is read from digits only, but for a plus sign. -/
theorem eq_plus_or_isDigit_of_readBound {token side : Text} {bound : Option UInt64}
    (h : readBound token side = .ok bound) {c : Char} (hc : c ∈ side) :
    c = '+' ∨ c.isDigit = true := by
  rw [readBound] at h
  split at h
  · next he => simp [List.isEmpty_iff.mp he] at hc
  · cases hw : Text.toWord? side with
    | none => simp [hw] at h
    | some n => exact Text.eq_plus_or_isDigit_of_toWord? hw hc

/-- A range is read from digits, dots and plus signs only. -/
theorem mem_of_ofToken {w : Text} {r : SalaryRange} (h : ofToken w = .ok r) {c : Char}
    (hc : c ∈ w) : c = '.' ∨ c = '+' ∨ c.isDigit = true := by
  rw [ofToken] at h
  split at h
  · cases h
  · next left right hcut =>
    cases hl : readBound w left with
    | error e => simp [hl] at h
    | ok min =>
      cases hr : readBound w right with
      | error e => simp [hl, hr] at h
      | ok max =>
        rw [Text.eq_append_of_cutAt? hcut, List.mem_append, List.mem_append] at hc
        rcases hc with (hc | hc) | hc
        · exact Or.inr (eq_plus_or_isDigit_of_readBound hl hc)
        · exact Or.inl (by simpa [rangeDots] using hc)
        · exact Or.inr (eq_plus_or_isDigit_of_readBound hr hc)

end SalaryRange

namespace Part

/-- The value of a site or of a date bound. -/
def operatorValue? : Part → Option Text
  | .site v => some v
  | .after v => some v
  | .before v => some v
  | .text _ => none
  | .lastMonth _ => none
  | .salary _ => none

/-- A value is written as an operator exactly when it is one word. -/
theorem operatorToken_eq_ok_iff {k : PartKind} {v t : Text} :
    operatorToken k v = .ok t ↔ Text.IsWord v ∧ t = k.name ++ ':' :: v := by
  rw [operatorToken]
  split
  · next he =>
    have hn : ¬ Text.IsWord v := fun hw => hw.1 (List.isEmpty_iff.mp he)
    simp only [reduceCtorEq, hn, false_and]
  · next he =>
    split
    · next hb =>
      obtain ⟨c, hc, hcb⟩ := List.any_eq_true.mp hb
      have hn : ¬ Text.IsWord v := fun hw => by simp [hw.2 c hc] at hcb
      simp only [reduceCtorEq, hn, false_and]
    · next hb =>
      have hw : Text.IsWord v := ⟨fun hv => he (List.isEmpty_iff.mpr hv), by simpa using hb⟩
      simp only [Except.ok.injEq, hw, true_and]
      exact eq_comm

/-- A name, a colon and a word are one word. -/
theorem isWord_operator (k : PartKind) {v : Text} (hv : Text.IsWord v) :
    Text.IsWord (k.name ++ ':' :: v) := by
  refine k.isWord_name.append fun c hc => ?_
  rcases List.mem_cons.mp hc with rfl | hc
  · rfl
  · exact hv.2 c hc

/-- An operator is written as its name, a colon and its value. -/
theorem token_of_operatorValue? (cal : Calendar) {p : Part} {v : Text}
    (h : p.operatorValue? = some v) : p.token cal = operatorToken p.kind v := by
  cases p <;> simp only [operatorValue?, Option.some.injEq, reduceCtorEq] at h <;> subst h <;> rfl

theorem ofOperator?_kind_name {p : Part} {v : Text} (h : p.operatorValue? = some v) :
    ofOperator? p.kind.name v = some p := by
  cases p with
  | site w =>
    obtain rfl := Option.some.inj h
    simp only [kind, ofOperator?, PartKind.name_inj, reduceCtorEq, if_false, if_true]
  | after w =>
    obtain rfl := Option.some.inj h
    simp only [kind, ofOperator?, if_true]
  | before w =>
    obtain rfl := Option.some.inj h
    simp only [kind, ofOperator?, PartKind.name_inj, reduceCtorEq, if_false, if_true]
  | text w => cases h
  | lastMonth w => cases h
  | salary r => cases h

theorem eq_of_ofOperator? {operator v : Text} {p : Part} (h : ofOperator? operator v = some p) :
    p.operatorValue? = some v ∧ operator = p.kind.name := by
  rw [ofOperator?] at h
  split at h
  · next ho =>
    obtain rfl := Option.some.inj h
    exact ⟨rfl, ho⟩
  · split at h
    · next ho =>
      obtain rfl := Option.some.inj h
      exact ⟨rfl, ho⟩
    · split at h
      · next ho =>
        obtain rfl := Option.some.inj h
        exact ⟨rfl, ho⟩
      · cases h

theorem not_mem_structuralTokens_of_colon {w : Text} (h : ':' ∈ w) : w ∉ structuralTokens := by
  have hall : ∀ s ∈ structuralTokens, ':' ∉ s := by decide
  exact fun hm => hall w hm h

theorem not_mem_structuralTokens_of_dots {w : Text} (h : rangeDots <:+: w) :
    w ∉ structuralTokens := by
  have hall : ∀ s ∈ structuralTokens, '.' ∉ s := by decide
  exact fun hm => hall w hm (h.subset (by decide))

/-- A word that only groups others carries no part. -/
theorem ofToken_of_structural {w : Text} (h : w ∈ structuralTokens) : ofToken w = .ok none := by
  simp only [ofToken, h, or_true, if_true]

/-- A word with two dots is read as a salary range or not at all. -/
theorem ofToken_of_dots {w : Text} (h : rangeDots <:+: w) :
    ofToken w = (SalaryRange.ofToken w).map fun r => some (.salary r) := by
  have hne : w.isEmpty = false := by
    cases w with
    | nil => exact absurd (List.infix_nil.mp h) (by decide)
    | cons c r => rfl
  have hd : w.contains rangeDots = true := Text.contains_iff.mpr h
  simp only [ofToken, hne, Bool.false_eq_true, false_or, not_mem_structuralTokens_of_dots h,
    if_false, hd, if_true]

/-- A word without two dots and without a colon is read as a text. -/
theorem ofToken_of_plain {w : Text} (hne : w ≠ []) (hs : w ∉ structuralTokens)
    (hd : ¬ rangeDots <:+: w) (hc : ':' ∉ w) : ofToken w = .ok (some (.text w)) := by
  have he : w.isEmpty = false := List.isEmpty_eq_false_iff.mpr hne
  have hcut : Text.cutAt? [':'] w = none :=
    Text.cutAt?_eq_none_iff.mpr ((not_congr (List.singleton_infix_iff _ _)).mpr hc)
  simp only [ofToken, he, Bool.false_eq_true, false_or, hs, if_false,
    Text.contains_eq_false_iff.mpr hd, hcut]

theorem dots_isInfix_operator_iff {k : PartKind} {v : Text} :
    rangeDots <:+: k.name ++ ':' :: v ↔ rangeDots <:+: v := by
  rw [List.append_cons]
  refine Text.isInfix_append_iff fun hm => ?_
  rcases List.mem_append.mp hm with hm | hm
  · exact k.dot_not_mem_name hm
  · exact absurd hm (by decide)

/-- A word without two dots and with an operator before its first colon is read as the operator. -/
theorem ofToken_of_operator {p : Part} {v : Text} (h : p.operatorValue? = some v)
    (hd : ¬ rangeDots <:+: v) : ofToken (p.kind.name ++ ':' :: v) = .ok (some p) := by
  have hm : ':' ∈ p.kind.name ++ ':' :: v := by simp
  have he : (p.kind.name ++ ':' :: v).isEmpty = false := by simp
  have hc : Text.contains (p.kind.name ++ ':' :: v) rangeDots = false :=
    Text.contains_eq_false_iff.mpr ((not_congr dots_isInfix_operator_iff).mpr hd)
  have hcut : Text.cutAt? [':'] (p.kind.name ++ ':' :: v) = some (p.kind.name, v) := by
    rw [List.append_cons]
    exact Text.cutAt?_append p.kind.colon_not_mem_name
  simp only [ofToken, he, Bool.false_eq_true, false_or, not_mem_structuralTokens_of_colon hm,
    if_false, hc, hcut, ofOperator?_kind_name h]

/-- An operator whose value has two dots is not read. -/
theorem ofToken_ne_ok_of_dots {k : PartKind} {v : Text} (hd : rangeDots <:+: v)
    (o : Option Part) : ofToken (k.name ++ ':' :: v) ≠ .ok o := by
  rw [ofToken_of_dots (dots_isInfix_operator_iff.mpr hd)]
  cases hr : SalaryRange.ofToken (k.name ++ ':' :: v) with
  | error e => exact fun h => by cases h
  | ok r =>
    have hm := SalaryRange.mem_of_ofToken hr (List.mem_append_right _ (List.mem_cons_self ..))
    exact absurd hm (by decide)

/-- All that a word can be read as: nothing if it only groups others, itself as a text, a salary
range, or an operator with its value. -/
theorem ofToken_cases {w : Text} {o : Option Part} (h : ofToken w = .ok o) :
    (o = none ∧ (w = [] ∨ w ∈ structuralTokens)) ∨
    (o = some (.text w) ∧ w ∉ structuralTokens ∧ ¬ rangeDots <:+: w ∧ ':' ∉ w) ∨
    (∃ r, o = some (.salary r) ∧ rangeDots <:+: w ∧ SalaryRange.ofToken w = .ok r) ∨
    ∃ p v, o = some p ∧ p.operatorValue? = some v ∧ w = p.kind.name ++ ':' :: v ∧
      ¬ rangeDots <:+: v := by
  rw [ofToken] at h
  split at h
  · next hs =>
    refine Or.inl ⟨(Except.ok.inj h).symm, ?_⟩
    rwa [List.isEmpty_iff] at hs
  · next hs =>
    rw [not_or] at hs
    split at h
    · next hd =>
      cases hr : SalaryRange.ofToken w with
      | error e => simp [hr, Except.map] at h
      | ok r =>
        rw [hr] at h
        exact Or.inr (Or.inr (Or.inl ⟨r, (Except.ok.inj h).symm, Text.contains_iff.mp hd, rfl⟩))
    · next hd =>
      have hd' : ¬ rangeDots <:+: w := (not_congr Text.contains_iff).mp hd
      split at h
      · next hcut =>
        have hc := (not_congr (List.singleton_infix_iff _ _)).mp (Text.cutAt?_eq_none_iff.mp hcut)
        exact Or.inr (Or.inl ⟨(Except.ok.inj h).symm, hs.2, hd', hc⟩)
      · next operator v hcut =>
        split at h
        · next p hp =>
          obtain ⟨hv, rfl⟩ := eq_of_ofOperator? hp
          have hw : w = p.kind.name ++ ':' :: v := by
            rw [Text.eq_append_of_cutAt? hcut, List.append_assoc, List.singleton_append]
          refine Or.inr (Or.inr (Or.inr ⟨p, v, (Except.ok.inj h).symm, hv, hw, ?_⟩))
          exact (not_congr dots_isInfix_operator_iff).mp (hw ▸ hd')
        · cases h

/-- Exactly the words that only group others carry no part. -/
theorem ofToken_eq_ok_none_iff {w : Text} (hw : w ≠ []) :
    ofToken w = .ok none ↔ w ∈ structuralTokens := by
  constructor
  · intro h
    rcases ofToken_cases h with ⟨-, hs⟩ | ⟨hs, -⟩ | ⟨r, hs, -⟩ | ⟨p, v, hs, -⟩
    · exact hs.resolve_left hw
    · cases hs
    · cases hs
    · cases hs
  · exact ofToken_of_structural

/-- The part that a word carries: itself as a text, a salary range, or an operator with a value. -/
theorem ofToken_cases_some {w : Text} {p : Part} (h : ofToken w = .ok (some p)) :
    (p = .text w ∧ w ∉ structuralTokens ∧ ¬ rangeDots <:+: w ∧ ':' ∉ w) ∨
    (∃ r, p = .salary r ∧ rangeDots <:+: w ∧ SalaryRange.ofToken w = .ok r) ∨
    ∃ v, p.operatorValue? = some v ∧ w = p.kind.name ++ ':' :: v ∧ ¬ rangeDots <:+: v := by
  rcases ofToken_cases h with ⟨ho, -⟩ | ⟨ho, hw⟩ | ⟨r, ho, hw⟩ | ⟨q, v, ho, hw⟩
  · cases ho
  · exact Or.inl ⟨Option.some.inj ho, hw⟩
  · exact Or.inr (Or.inl ⟨r, Option.some.inj ho, hw⟩)
  · obtain rfl := Option.some.inj ho
    exact Or.inr (Or.inr ⟨v, hw⟩)

end Part

end JobSearch
