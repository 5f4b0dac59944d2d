import JobSearch.Calendar.Clock
import JobSearch.Proofs.Calendar.Bound
import JobSearch.Proofs.Query.Sweep

/-!
# Sweeping a variation

A variation names its own upper bound, unless the query names another day besides its bounds. So a
sweep of a variation goes on where the first sweep wrote it, and returns the variations that follow.
-/

namespace JobSearch

theorem Calendar.resolve_unwords (cal : Calendar) {ws : List Text} (hne : ws ≠ [])
    (hw : ∀ w ∈ ws, Text.IsWord w) :
    cal.resolve (some (Text.unwords ws)) =
      (cal.recognize (Text.unwords ws) cal.today).getD cal.today := by
  simp only [Calendar.resolve, Calendar.question?, Text.not_isAllBlank_unwords hne hw,
    Text.trim_unwords hw, Bool.false_eq_true, if_false]

namespace Query

/-- The words of a variation that are no date operators are those of the query. -/
theorem stripDates_between (q : Text) (after before : Date) :
    stripDates (between (stripDates q) after before) = stripDates q := by
  have hb (k : PartKind) (d : Date) (hk : k = .before ∨ k = .after) :
      isDateToken (boundToken k d) = true := by
    rw [isDateToken_iff, operatorStart_prefix_boundToken_iff, operatorStart_prefix_boundToken_iff,
      eq_comm, eq_comm (a := PartKind.after)]
    exact hk
  have hu : (undated q).filter (fun w => !isDateToken w) = undated q := by
    rw [undated, List.filter_filter]
    simp only [Bool.and_self]
  rw [stripDates, words_between_stripDates, List.filter_append, hu,
    List.filter_cons_of_neg (by simp [hb]), List.filter_cons_of_neg (by simp [hb]),
    List.filter_nil, List.append_nil]
  rfl

/-- A variation of a query that names no day besides its bounds resolves to its upper bound. -/
theorem resolve_between {today : Date} {q : Text} {after before : Date}
    (hnone : Recognizer.recognize (stripDates q) today = none) (hd : before.day = 1)
    (hy : 0 ≤ before.year ∧ before.year ≤ 9999) :
    (Calendar.pinned today).resolve (some (between (stripDates q) after before)) = before := by
  have hw := isWord_of_mem_bounded q after before
  rw [between_stripDates, Calendar.resolve_unwords _ (by simp) hw]
  -- Behind the words of the query, if there are any, a space and the bound follow.
  have hcut : ∃ gap : Text, (∀ c ∈ gap, CharClass.isWord c = false) ∧
      Text.endsWord (stripDates q ++ gap) = false ∧
      Text.unwords (undated q ++ [boundToken .before before, boundToken .after after]) =
        stripDates q ++ gap ++ ("before".toList ++ ':' ::
          (operatorDate before ++ ' ' :: boundToken .after after)) := by
    have htail : Text.unwords (undated q ++ [boundToken .before before, boundToken .after after]) =
        Text.unwords (undated q ++ [boundToken .before before]) ++
          ' ' :: boundToken .after after := by
      rw [← Text.unwords_append_singleton (by simp), List.append_assoc]
      rfl
    have hname : boundToken .before before = "before".toList ++ ':' :: operatorDate before := rfl
    have hstrip : stripDates q = Text.unwords (undated q) := rfl
    by_cases hne : undated q = []
    · have hnil : stripDates q = [] := by
        rw [hstrip, hne]
        rfl
      refine ⟨[], by simp, by rw [hnil]; rfl, ?_⟩
      rw [htail, hnil, hne, hname]
      simp
    · have hspace : Text.IsGap [' '] := by decide
      refine ⟨[' '], hspace.2, ?_, ?_⟩
      · rw [Text.endsWord_append (by simp), Text.endsWord_eq_false hspace.2]
      · rw [htail, Text.unwords_append_singleton hne, hname, hstrip]
        simp
  obtain ⟨gap, hgap, hfront, htext⟩ := hcut
  have hspace : CharClass.isWord ' ' = false := by decide
  have hrest : Text.startsWord (' ' :: boundToken .after after) = false := hspace
  have hrec := Recognizer.recognize_bound hgap hfront hnone hd hy hrest
  rw [htext]
  exact congrArg (Option.getD · today) hrec

/-- A sweep of a variation continues the sweep that it comes from. Each variation has the first day
of a month as its upper bound. If the query names no day besides its date bounds, and the year of
that month is written with four digits and no sign, a sweep of the variation returns it again and
those that follow it. -/
theorem variations_resume {today : Date} {q : Text} {count : Nat} {vs : List Variation}
    (hv : variations (.pinned today) q count = .ok vs)
    (hnone : (Calendar.pinned today).recognize (stripDates q) today = none) :
    ∃ months : Nat → Date,
      (∀ i ≤ count, Date.firstOfIndex? (((Calendar.pinned today).resolve (some q)).monthIndex - i) =
        some (months i)) ∧
      vs.length = count ∧
      ∀ i v, vs[i]? = some v →
        boundToken .before (months i) ∈ v.query.words ∧
        (0 ≤ (months i).year → (months i).year ≤ 9999 → ∀ k ≤ count - i,
          variations (.pinned today) v.query k = .ok ((vs.drop i).take k)) := by
  obtain ⟨months, hmonths, rfl⟩ := exists_bounds_of_variations hv
  refine ⟨months, hmonths, by rw [List.length_map, List.length_range], fun i v hi => ?_⟩
  obtain ⟨hic, rfl⟩ := lt_and_eq_of_getElem? hi
  refine ⟨by simp [words_between_stripDates], fun hlow hhigh k hk => ?_⟩
  have hcount := count_le_of_variations hv
  obtain ⟨hidx, hday⟩ := Date.firstOfIndex?_eq_some_iff.mp (hmonths i (by omega))
  have hlast := (Date.firstOfIndex?_eq_some_iff.mp (hmonths (i + k) (by omega))).1
  have hfirst := (months (i + k)).monthIndex_mem.1
  -- The variation resolves to its own upper bound.
  have hres : (Calendar.pinned today).resolve
      (some (between (stripDates q) (months (i + 1)) (months i))) = months i :=
    resolve_between hnone hday ⟨hlow, hhigh⟩
  have hmonth : k ≤ ((Calendar.pinned today).resolve
      (some (between (stripDates q) (months (i + 1)) (months i)))).monthIndex -
        Date.firstIndex := by
    rw [hres]
    omega
  have hkc : k ≤ maxVariationCount := by omega
  obtain ⟨months', hmonths', hok⟩ := exists_variations_eq_ok hkc hmonth
  rw [hres, hidx] at hmonths'
  -- From there, both sweeps go down the same months.
  have heq : ∀ j ≤ k, months' j = months (i + j) := by
    intro j hj
    have hj' := hmonths (i + j) (by omega)
    rw [Int.natCast_add, ← Int.sub_sub, hmonths' j hj] at hj'
    exact Option.some.inj hj'
  rw [hok, stripDates_between]
  refine congrArg Except.ok (List.ext_getElem ?_ fun j hj hj' => ?_)
  · simp only [List.length_map, List.length_range, List.length_take, List.length_drop]
    omega
  · rw [List.length_map, List.length_range] at hj
    simp only [List.getElem_map, List.getElem_range, List.getElem_take, List.getElem_drop,
      heq j (by omega), heq (j + 1) (by omega), Nat.add_assoc]

/-- A month name alone is no day, in front of a bound either. -/
theorem variations_resume_march :
    let today : Date := ⟨2024, 7, 20, by decide⟩
    let q : Text := "rust after:2024-03-15 march 5".toList
    let vs : List Variation :=
      [⟨"February, 2024".toList, "rust march 5 before:2024-03-01 after:2024-02-01".toList⟩,
        ⟨"January, 2024".toList, "rust march 5 before:2024-02-01 after:2024-01-01".toList⟩,
        ⟨"December, 2023".toList, "rust march 5 before:2024-01-01 after:2023-12-01".toList⟩]
    (variations (.pinned today) q 3 = .ok vs ∧
      (Calendar.pinned today).recognize (stripDates q) today = none) ∧
      variations (.pinned today) "rust march 5 before:2024-02-01 after:2024-01-01".toList 2 =
        .ok (vs.drop 1) := by
  intro today q vs
  have hv : variations (.pinned today) q 3 = .ok vs := by decide +kernel
  have hnone : (Calendar.pinned today).recognize (stripDates q) today = none := by decide +kernel
  have hm : Date.firstOfIndex? (((Calendar.pinned today).resolve (some q)).monthIndex - (1 : Nat)) =
      some ⟨2024, 2, 1, by decide⟩ := by decide +kernel
  obtain ⟨months, hb, -, hsweep⟩ := variations_resume hv hnone
  have hmonth := Option.some.inj ((hb 1 (by decide)).symm.trans hm)
  have hyear : (months 1).year = 2024 := by rw [hmonth]
  exact ⟨⟨hv, hnone⟩, (hsweep 1 _ rfl).2 (by omega) (by omega) 2 (by decide)⟩

end Query

end JobSearch
