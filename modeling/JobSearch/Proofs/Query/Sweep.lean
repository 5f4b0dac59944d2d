import JobSearch.Query.Sweep
import JobSearch.Proofs.Calendar.Month
import JobSearch.Proofs.Part.Token
import JobSearch.Proofs.Results

/-!
# What a sweep returns

An operator is found only where a word starts with it, so on a query without date tokens both bounds
of a month are added at the end, the earlier one last. A sweep goes down month by month and fails
only where the calendar begins.
-/

namespace JobSearch

namespace Query

/-- An operator is found at the start of the text or behind white space, and nothing is lost. -/
theorem of_splitAtOperator {needle t front back : Text} {skip : Nat} {fresh : Bool}
    (h : splitAtOperator needle skip fresh t = some (front, back)) :
    t = front ++ needle ++ back ∧
      (front = [] ∧ fresh = true ∨ ∃ a c, front = a ++ [c] ∧ Text.isBlank c = true) := by
  induction t generalizing skip fresh front with
  | nil => cases skip <;> simp [splitAtOperator] at h
  | cons c r ih =>
    -- Further on, the character before the operator is white space, whatever was skipped.
    have hlater {skip : Nat} (h : (splitAtOperator needle skip (Text.isBlank c) r).map
        (fun p => (c :: p.1, p.2)) = some (front, back)) :
        c :: r = front ++ needle ++ back ∧
          (front = [] ∧ fresh = true ∨ ∃ a c, front = a ++ [c] ∧ Text.isBlank c = true) := by
      obtain ⟨⟨front', back'⟩, hr, he⟩ := Option.map_eq_some_iff.mp h
      obtain ⟨rfl, rfl⟩ := Prod.mk.inj he
      obtain ⟨ht, hf⟩ := ih hr
      refine ⟨by rw [ht]; rfl, Or.inr ?_⟩
      rcases hf with ⟨rfl, hc⟩ | ⟨a, d, rfl, hd⟩
      · exact ⟨[], c, rfl, hc⟩
      · exact ⟨c :: a, d, rfl, hd⟩
    cases skip with
    | succ skip => exact hlater h
    | zero =>
      rw [splitAtOperator] at h
      split at h
      · next hp =>
        rw [Bool.and_eq_true] at hp
        obtain ⟨rfl, rfl⟩ := Prod.mk.inj (Option.some.inj h)
        refine ⟨?_, Or.inl ⟨rfl, hp.2⟩⟩
        rw [List.nil_append]
        exact (List.prefix_iff_eq_append.mp (List.isPrefixOf_iff_prefix.mp hp.1)).symm
      · exact hlater h

/-- An operator is not found if no word starts with it. -/
theorem splitAtOperator_eq_none {needle t : Text} (hn : Text.IsWord needle)
    (h : ∀ w ∈ t.words, ¬ needle <+: w) : splitAtOperator needle 0 true t = none := by
  rw [Option.eq_none_iff_forall_ne_some]
  rintro ⟨front, back⟩ hs
  obtain ⟨rfl, hf⟩ := of_splitAtOperator hs
  obtain ⟨w, hw, hp⟩ := Text.exists_mem_words_of_prefix hn back
  refine h w ?_ hp
  rcases hf with ⟨rfl, -⟩ | ⟨a, c, rfl, hc⟩
  · exact hw
  · rw [List.append_assoc, List.append_assoc, List.singleton_append, Text.words_append_cons hc]
    exact List.mem_append_right _ hw

/-- On words of which none starts with the operator, it is added as the last word. -/
theorem setOperator_unwords {key value : Text} (hk : Text.IsWord (operatorStart key))
    {ws : List Text} (hw : ∀ w ∈ ws, Text.IsWord w) (h : ∀ w ∈ ws, ¬ operatorStart key <+: w) :
    setOperator (Text.unwords ws) key value =
      Text.unwords (ws ++ [operatorStart key ++ value]) := by
  have hnone : splitAtOperator (operatorStart key) 0 true (Text.unwords ws) = none := by
    refine splitAtOperator_eq_none hk ?_
    rwa [Text.words_unwords_of_isWord hw]
  rw [setOperator, hnone]
  by_cases hne : ws = []
  · rw [hne, List.nil_append, Text.unwords_singleton]
    rfl
  · obtain ⟨a, c, he, hc⟩ := Text.exists_unwords_eq_append_singleton hne hw
    have hb := Text.not_isAllBlank_unwords hne hw
    have ht : (Text.unwords ws).trimEnd = Text.unwords ws := by
      rw [he, Text.trimEnd_append_singleton hc]
    simp only [hb, ht, Bool.false_eq_true, if_false]
    rw [Text.unwords_append_singleton hne, List.append_assoc, List.cons_append]

/-- A date bound as a word. -/
def boundToken (k : PartKind) (d : Date) : Text := operatorStart k.name ++ operatorDate d

theorem isWord_operatorStart (k : PartKind) : Text.IsWord (operatorStart k.name) := by
  cases k <;> decide

theorem isWord_boundToken (k : PartKind) (d : Date) : Text.IsWord (boundToken k d) :=
  (isWord_operatorStart k).append (isWord_operatorDate d).2

/-- An operator starts with no other operator than itself. -/
theorem operatorStart_prefix_iff {j k : PartKind} {v : Text} :
    operatorStart j.name <+: operatorStart k.name ++ v ↔ j = k := by
  constructor
  · rintro ⟨r, hr⟩
    have hj : Text.cutAt? [':'] (j.name ++ [':'] ++ r) = some (j.name, r) :=
      Text.cutAt?_append j.colon_not_mem_name
    have hk : Text.cutAt? [':'] (k.name ++ [':'] ++ v) = some (k.name, v) :=
      Text.cutAt?_append k.colon_not_mem_name
    rw [operatorStart, operatorStart] at hr
    rw [hr, hk] at hj
    exact PartKind.name_inj.mp (Prod.mk.inj (Option.some.inj hj)).1.symm
  · rintro rfl
    exact List.prefix_append ..

/-- A bound starts with no other operator than its own. -/
theorem operatorStart_prefix_boundToken_iff {j k : PartKind} {d : Date} :
    operatorStart j.name <+: boundToken k d ↔ j = k :=
  operatorStart_prefix_iff

theorem isDateToken_iff {w : Text} :
    isDateToken w = true ↔
      operatorStart PartKind.before.name <+: w ∨ operatorStart PartKind.after.name <+: w := by
  rw [isDateToken, Bool.or_eq_true, List.isPrefixOf_iff_prefix, List.isPrefixOf_iff_prefix]

/-- The words of a query that are no date operators. -/
def undated (q : Text) : List Text := q.words.filter fun w => !isDateToken w

theorem isWord_of_mem_undated {q w : Text} (h : w ∈ undated q) : Text.IsWord w :=
  Text.isWord_of_mem_words (List.mem_filter.mp h).1

theorem not_prefix_of_mem_undated {q w : Text} (h : w ∈ undated q) {k : PartKind}
    (hk : k = .before ∨ k = .after) : ¬ operatorStart k.name <+: w := by
  have hd := (List.mem_filter.mp h).2
  rw [Bool.not_eq_true', ← Bool.not_eq_true, isDateToken_iff, not_or] at hd
  rcases hk with rfl | rfl
  · exact hd.1
  · exact hd.2

/-- Both bounds of a month are added at the end of a query without date operators. -/
theorem between_stripDates (q : Text) (after before : Date) :
    between (stripDates q) after before =
      Text.unwords (undated q ++ [boundToken .before before, boundToken .after after]) := by
  have hw : ∀ w ∈ undated q ++ [boundToken .before before], Text.IsWord w := by
    intro w hw
    rcases List.mem_append.mp hw with hw | hw
    · exact isWord_of_mem_undated hw
    · rw [List.mem_singleton.mp hw]
      exact isWord_boundToken .before before
  have ha : ∀ w ∈ undated q ++ [boundToken .before before],
      ¬ operatorStart PartKind.after.name <+: w := by
    intro w hw
    rcases List.mem_append.mp hw with hw | hw
    · exact not_prefix_of_mem_undated hw (Or.inr rfl)
    · rw [List.mem_singleton.mp hw, operatorStart_prefix_boundToken_iff]
      decide
  have hset : setOperator (stripDates q) PartKind.before.name (operatorDate before) =
      Text.unwords (undated q ++ [boundToken .before before]) :=
    setOperator_unwords (isWord_operatorStart .before) (fun w hw => isWord_of_mem_undated hw)
      fun w hw => not_prefix_of_mem_undated hw (Or.inl rfl)
  rw [between, hset, setOperator_unwords (isWord_operatorStart .after) hw ha, List.append_assoc]
  rfl

/-- A query without date operators and the bounds behind it are words. -/
theorem isWord_of_mem_bounded (q : Text) (after before : Date) :
    ∀ w ∈ undated q ++ [boundToken .before before, boundToken .after after], Text.IsWord w := by
  intro w hw
  rcases List.mem_append.mp hw with hw | hw
  · exact isWord_of_mem_undated hw
  · rw [List.mem_cons, List.mem_singleton] at hw
    rcases hw with rfl | rfl
    · exact isWord_boundToken .before before
    · exact isWord_boundToken .after after

/-- The words of a query bounded to a month: its own that are no date operators, then the bounds. -/
theorem words_between_stripDates (q : Text) (after before : Date) :
    (between (stripDates q) after before).words =
      undated q ++ [boundToken .before before, boundToken .after after] := by
  rw [between_stripDates]
  exact Text.words_unwords_of_isWord (isWord_of_mem_bounded q after before)

/-- A query bounded to a month has exactly one bound of each kind. -/
theorem filter_words_between_stripDates (q : Text) (after before : Date) :
    (between (stripDates q) after before).words.filter
        (operatorStart PartKind.before.name).isPrefixOf = [boundToken .before before] ∧
      (between (stripDates q) after before).words.filter
        (operatorStart PartKind.after.name).isPrefixOf = [boundToken .after after] := by
  have hp (j k : PartKind) (d : Date) :
      (operatorStart j.name).isPrefixOf (boundToken k d) = decide (j = k) := by
    rw [Bool.eq_iff_iff, List.isPrefixOf_iff_prefix, operatorStart_prefix_boundToken_iff,
      decide_eq_true_iff]
  have hn {k : PartKind} (hk : k = .before ∨ k = .after) :
      (undated q).filter (operatorStart k.name).isPrefixOf = [] := by
    rw [List.filter_eq_nil_iff]
    intro w hw
    rw [List.isPrefixOf_iff_prefix]
    exact not_prefix_of_mem_undated hw hk
  simp only [words_between_stripDates, List.filter_append, hn (Or.inl rfl), hn (Or.inr rfl),
    List.filter_cons, hp, List.filter_nil, reduceCtorEq, decide_true, decide_false, if_true,
    Bool.false_eq_true, if_false, List.nil_append, and_self]

/-- A sweep whose months can all be reached returns one variation for each, between neighbouring
bounds. -/
theorem sweepFrom_of_shiftMonth {q : Text} {count : Nat} {bounds : Nat → Date}
    (h : ∀ i < count, shiftMonth (bounds i) (-1) = .ok (bounds (i + 1))) :
    sweepFrom q count (bounds 0) = .ok ((List.range count).map fun i =>
      ⟨monthLabel (bounds (i + 1)), between q (bounds (i + 1)) (bounds i)⟩) := by
  induction count generalizing bounds with
  | zero => rfl
  | succ count ih =>
    have hrest := @ih (fun i => bounds (i + 1)) fun i hi => h (i + 1) (by omega)
    simp only [sweepFrom, h 0 (by omega), hrest, Except.map, List.range_succ_eq_map, List.map_cons,
      List.map_map, Function.comp_def, Nat.succ_eq_add_one]

/-- A sweep over more months than the calendar has fails at its first day. -/
theorem sweepFrom_eq_error {q : Text} {count : Nat} {month : Date} (hd : month.day = 1)
    (h : month.monthIndex - Date.firstIndex < count) :
    sweepFrom q count month = .error (.dateOutOfRange .first (-1)) := by
  induction count generalizing month with
  | zero =>
    have := month.monthIndex_mem
    omega
  | succ count ih =>
    rw [sweepFrom]
    cases hs : shiftMonth month (-1) with
    | error e =>
      -- Only the first day of the calendar has no month before it.
      obtain ⟨hi, rfl⟩ := shiftMonth_eq_error_iff.mp hs
      have hm := month.monthIndex_mem
      have hfirst : Date.firstOfIndex? Date.firstIndex = some month :=
        Date.firstOfIndex?_eq_some_iff.mpr ⟨by omega, hd⟩
      obtain rfl := Option.some.inj (Date.firstOfIndex?_first.symm.trans hfirst)
      rfl
    | ok earlier =>
      obtain ⟨hi, hd'⟩ := Date.firstOfIndex?_eq_some_iff.mp (shiftMonth_eq_ok_iff.mp hs)
      have hrest := ih hd' (by omega)
      simp only [hrest, Except.map]

/-- Every month down to the first of the calendar is reached from a later one. -/
theorem exists_bounds {m : Int} {count : Nat} (hm : m ≤ Date.lastIndex)
    (h : count ≤ m - Date.firstIndex) :
    ∃ bounds : Nat → Date, ∀ i ≤ count, Date.firstOfIndex? (m - i) = some (bounds i) := by
  refine ⟨fun i => (Date.firstOfIndex? (m - i)).getD .first, fun i hi => ?_⟩
  obtain ⟨d, hd⟩ := Date.exists_firstOfIndex? (i := m - i) (by omega)
  simp only [hd, Option.getD_some]

section Outcomes

variable {cal : Calendar} {q : Text} {count : Nat}

/-- A sweep of an allowed length starts at the first day of the month that the query resolves to. -/
theorem exists_variations_eq_sweepFrom (cal : Calendar) (q : Text) (h : count ≤ maxVariationCount) :
    ∃ month, Date.firstOfIndex? (cal.resolve (some q)).monthIndex = some month ∧
      variations cal q count = sweepFrom (stripDates q) count month := by
  obtain ⟨month, hm⟩ := Date.exists_firstOfIndex? (cal.resolve (some q)).monthIndex_mem
  have hs : shiftMonth (cal.resolve (some q)) 0 = .ok month := by
    rw [shiftMonth_eq_ok_iff, Int.add_zero]
    exact hm
  refine ⟨month, hm, ?_⟩
  rw [variations, if_neg (Nat.not_lt.mpr h), hs]

/-- A sweep that goes past the beginning of the calendar fails there. -/
theorem variations_eq_error (h : count ≤ maxVariationCount)
    (hc : (cal.resolve (some q)).monthIndex - Date.firstIndex < count) :
    variations cal q count = .error (.dateOutOfRange .first (-1)) := by
  obtain ⟨month, hm, hv⟩ := exists_variations_eq_sweepFrom cal q h
  obtain ⟨hi, hd⟩ := Date.firstOfIndex?_eq_some_iff.mp hm
  rw [hv]
  exact sweepFrom_eq_error hd (by omega)

/-- Any other sweep of an allowed length returns a variation for each month. -/
theorem exists_variations_eq_ok (h : count ≤ maxVariationCount)
    (hc : count ≤ (cal.resolve (some q)).monthIndex - Date.firstIndex) :
    ∃ bounds : Nat → Date,
      (∀ i ≤ count, Date.firstOfIndex? ((cal.resolve (some q)).monthIndex - i) =
        some (bounds i)) ∧
      variations cal q count = .ok ((List.range count).map fun i =>
        ⟨monthLabel (bounds (i + 1)), between (stripDates q) (bounds (i + 1)) (bounds i)⟩) := by
  obtain ⟨month, hm, hv⟩ := exists_variations_eq_sweepFrom cal q h
  obtain ⟨bounds, hb⟩ := exists_bounds (cal.resolve (some q)).monthIndex_mem.2 hc
  have h₀ : bounds 0 = month := by
    have hb₀ := hb 0 (Nat.zero_le _)
    rw [Int.natCast_zero, Int.sub_zero, hm] at hb₀
    exact (Option.some.inj hb₀).symm
  refine ⟨bounds, hb, ?_⟩
  rw [hv, ← h₀]
  refine sweepFrom_of_shiftMonth fun i hi => ?_
  have hi₁ := (Date.firstOfIndex?_eq_some_iff.mp (hb i (by omega))).1
  rw [shiftMonth_eq_ok_iff, ← hb (i + 1) (by omega), hi₁]
  congr 1
  omega

/-- A sweep that succeeds has an allowed length. -/
theorem count_le_of_variations {vs : List Variation} (h : variations cal q count = .ok vs) :
    count ≤ maxVariationCount := by
  refine Nat.not_lt.mp fun hm => ?_
  rw [variations, if_pos hm] at h
  cases h

/-- A sweep that succeeds returns a variation for each month. -/
theorem exists_bounds_of_variations {vs : List Variation} (h : variations cal q count = .ok vs) :
    ∃ bounds : Nat → Date,
      (∀ i ≤ count, Date.firstOfIndex? ((cal.resolve (some q)).monthIndex - i) =
        some (bounds i)) ∧
      vs = (List.range count).map fun i =>
        ⟨monthLabel (bounds (i + 1)), between (stripDates q) (bounds (i + 1)) (bounds i)⟩ := by
  have hcount := count_le_of_variations h
  have hfirst : count ≤ (cal.resolve (some q)).monthIndex - Date.firstIndex := by
    refine Int.not_lt.mp fun hm => ?_
    cases h.symm.trans (variations_eq_error hcount hm)
  obtain ⟨bounds, hb, hv⟩ := exists_variations_eq_ok hcount hfirst
  exact ⟨bounds, hb, Except.ok.inj (h.symm.trans hv)⟩

/-- A variation of a sweep is told by its number. -/
theorem lt_and_eq_of_getElem? {f : Nat → Variation} {i : Nat} {v : Variation}
    (h : ((List.range count).map f)[i]? = some v) : i < count ∧ v = f i := by
  obtain ⟨hi, hv⟩ := List.getElem?_eq_some_iff.mp h
  rw [List.getElem_map, List.getElem_range] at hv
  rw [List.length_map, List.length_range] at hi
  exact ⟨hi, hv.symm⟩

end Outcomes

/-- The outcomes of a sweep. It fails if too many months are asked for, and else exactly if they go
past the beginning of the calendar. Else the first days of the months from the resolved one down
bound the variations: each has the words of the query that are no date operators, behind them one
bound of each kind, and the month before its upper bound as its label. -/
theorem variations_closed_form (cal : Calendar) (q : Text) (count : Nat) :
    let m := (cal.resolve (some q)).monthIndex
    (variations cal q count = .error (.variationCount count maxVariationCount) ↔
      maxVariationCount < count) ∧
    (variations cal q count = .error (.dateOutOfRange .first (-1)) ↔
      count ≤ maxVariationCount ∧ m - Date.firstIndex < count) ∧
    (count ≤ maxVariationCount → count ≤ m - Date.firstIndex →
      ∃ (vs : List Variation) (bounds : Nat → Date),
        variations cal q count = .ok vs ∧ vs.length = count ∧
        (∀ i ≤ count, Date.firstOfIndex? (m - i) = some (bounds i)) ∧
        ∀ i < count, ∃ v, vs[i]? = some v ∧ v.label = monthLabel (bounds (i + 1)) ∧
          v.query = Text.unwords
            (undated q ++ [boundToken .before (bounds i), boundToken .after (bounds (i + 1))]) ∧
          v.query.words.filter (operatorStart PartKind.before.name).isPrefixOf =
            [boundToken .before (bounds i)] ∧
          v.query.words.filter (operatorStart PartKind.after.name).isPrefixOf =
            [boundToken .after (bounds (i + 1))] ∧
          (bounds i).monthIndex = (bounds (i + 1)).monthIndex + 1) := by
  intro m
  have hmany (h : maxVariationCount < count) :
      variations cal q count = .error (.variationCount count maxVariationCount) := by
    rw [variations, if_pos h]
  refine ⟨⟨fun he => ?_, hmany⟩, ⟨fun he => ?_, fun h => variations_eq_error h.1 h.2⟩, ?_⟩
  · by_cases h : count ≤ maxVariationCount
    · by_cases hc : count ≤ m - Date.firstIndex
      · obtain ⟨bounds, -, hv⟩ := exists_variations_eq_ok h hc
        cases he.symm.trans hv
      · cases he.symm.trans (variations_eq_error h (by omega))
    · exact Nat.not_le.mp h
  · have h : count ≤ maxVariationCount := by
      refine Nat.not_lt.mp fun h => ?_
      cases he.symm.trans (hmany h)
    refine ⟨h, Int.not_le.mp fun hc => ?_⟩
    obtain ⟨bounds, -, hv⟩ := exists_variations_eq_ok h hc
    cases he.symm.trans hv
  · intro h hc
    obtain ⟨bounds, hb, hv⟩ := exists_variations_eq_ok h hc
    refine ⟨_, bounds, hv, by rw [List.length_map, List.length_range], hb, fun i hi => ?_⟩
    obtain ⟨hbefore, hafter⟩ := filter_words_between_stripDates q (bounds (i + 1)) (bounds i)
    have hi₀ := (Date.firstOfIndex?_eq_some_iff.mp (hb i (by omega))).1
    have hi₁ := (Date.firstOfIndex?_eq_some_iff.mp (hb (i + 1) (by omega))).1
    refine ⟨⟨monthLabel (bounds (i + 1)), between (stripDates q) (bounds (i + 1)) (bounds i)⟩, ?_,
      rfl, between_stripDates q _ _, hbefore, hafter, by omega⟩
    rw [List.getElem?_map, List.getElem?_range hi, Option.map_some]

theorem variations_closed_form_two_months :
    let cal : Calendar := ⟨fun _ _ => none, ⟨2024, 7, 20, by decide⟩⟩
    let q : Text := "rust after:2020-01-01 site:xafter:1".toList
    let vs : List Variation :=
      [⟨"June, 2024".toList, "rust site:xafter:1 before:2024-07-01 after:2024-06-01".toList⟩,
        ⟨"May, 2024".toList, "rust site:xafter:1 before:2024-06-01 after:2024-05-01".toList⟩]
    (2 ≤ maxVariationCount ∧ 2 ≤ (cal.resolve (some q)).monthIndex - Date.firstIndex) ∧
      variations cal q 2 = .ok vs ∧
      ∃ bounds : Nat → Date,
        (∀ i : Nat, i ≤ 2 → Date.firstOfIndex? (12 * 2024 + 6 - i) = some (bounds i)) ∧
        ∀ i < 2, ∃ v, vs[i]? = some v ∧ v.query = Text.unwords (undated q ++
          [boundToken .before (bounds i), boundToken .after (bounds (i + 1))]) := by
  intro cal q vs
  have hcount : 2 ≤ maxVariationCount := by decide
  have hm : (cal.resolve (some q)).monthIndex = 12 * 2024 + 6 := by decide +kernel
  have hmonth : 2 ≤ (cal.resolve (some q)).monthIndex - Date.firstIndex := by decide +kernel
  have hv : variations cal q 2 = .ok vs := by decide +kernel
  obtain ⟨ws, bounds, hw, -, hb, hq⟩ := (variations_closed_form cal q 2).2.2 hcount hmonth
  obtain rfl := Except.ok.inj (hv.symm.trans hw)
  rw [hm] at hb
  refine ⟨⟨hcount, hmonth⟩, hv, bounds, hb, fun i hi => ?_⟩
  obtain ⟨v, hi, -, hu, -⟩ := hq i hi
  exact ⟨v, hi, hu⟩

end Query

end JobSearch
