import JobSearch.Proofs.Calendar.Label
import JobSearch.Proofs.Query.Resume

/-!
# The labels of a sweep

Each variation of a sweep is labelled with the month of its lower bound. The label is read back as
the first day of that month, on every day, so the month before a label is the lower bound of the
variation that follows.
-/

namespace JobSearch

/-- The label of a month is read as its first day, whatever day it is. -/
theorem Calendar.resolve_monthLabel (today : Date) {d : Date} (hd : d.day = 1)
    (hy : 0 ≤ d.year ∧ d.year ≤ 9999) :
    (Calendar.pinned today).resolve (some (monthLabel d)) = d := by
  have hrec : Recognizer.recognize (monthLabel d) today = some d :=
    Recognizer.recognize_monthLabel hd hy
  obtain ⟨ws, hws, hne, hw⟩ := exists_monthLabel_eq_unwords hy
  rw [hws] at hrec ⊢
  rw [Calendar.resolve_unwords _ hne hw]
  exact congrArg (Option.getD · today) hrec

/-- The month before a label is written as the lower bound of the month before. -/
theorem Part.token_lastMonth_monthLabel (today : Date) {d e : Date} (hd : d.day = 1)
    (hy : 0 ≤ d.year ∧ d.year ≤ 9999) (he : shiftMonth d (-1) = .ok e) :
    Part.token (.pinned today) (.lastMonth (some (monthLabel d))) =
      .ok (Query.boundToken .after e) := by
  rw [Part.token, Calendar.lastMonth, Calendar.resolve_monthLabel today hd hy, he]
  simp [Except.map, Query.boundToken, operatorStart]

namespace Query

/-- Each variation of a sweep has one lower bound, the first day of a month. If the year of that
month is written with four digits and no sign, the label of the variation is read as this day,
whatever day it is, and the month before the label is written exactly as the lower bound of the
next variation. -/
theorem variations_label {cal : Calendar} {q : Text} {count : Nat} {vs : List Variation}
    (hv : variations cal q count = .ok vs) :
    vs.length = count ∧ ∀ i v, vs[i]? = some v → ∃ month : Date, month.day = 1 ∧
      v.query.words.filter (operatorStart PartKind.after.name).isPrefixOf =
        [boundToken .after month] ∧
      (0 ≤ month.year → month.year ≤ 9999 → ∀ today : Date,
        (Calendar.pinned today).resolve (some v.label) = month ∧
        ∀ w, vs[i + 1]? = some w →
          ∃ t, Part.token (.pinned today) (.lastMonth (some v.label)) = .ok t ∧
            w.query.words.filter (operatorStart PartKind.after.name).isPrefixOf = [t]) := by
  obtain ⟨months, hmonths, rfl⟩ := exists_bounds_of_variations hv
  refine ⟨by rw [List.length_map, List.length_range], fun i v hi => ?_⟩
  obtain ⟨hic, rfl⟩ := lt_and_eq_of_getElem? hi
  obtain ⟨hidx, hday⟩ := Date.firstOfIndex?_eq_some_iff.mp (hmonths (i + 1) hic)
  refine ⟨months (i + 1), hday, (filter_words_between_stripDates q _ _).2,
    fun hlow hhigh today => ⟨Calendar.resolve_monthLabel today hday ⟨hlow, hhigh⟩,
      fun w hw => ?_⟩⟩
  obtain ⟨hjc, rfl⟩ := lt_and_eq_of_getElem? hw
  have hnext : shiftMonth (months (i + 1)) (-1) = .ok (months (i + 1 + 1)) := by
    rw [shiftMonth_eq_ok_iff, ← hmonths (i + 1 + 1) hjc, hidx]
    congr 1
    omega
  exact ⟨_, Part.token_lastMonth_monthLabel today hday ⟨hlow, hhigh⟩ hnext,
    (filter_words_between_stripDates q _ _).2⟩

/-- The label of January leads back to December of the year before, on a day of another century. -/
theorem variations_label_january :
    let cal : Calendar := ⟨fun _ _ => none, ⟨2024, 2, 20, by decide⟩⟩
    let today : Date := ⟨1999, 12, 31, by decide⟩
    let month : Date := ⟨2024, 1, 1, by decide⟩
    let v : Variation :=
      ⟨"January, 2024".toList, "rust before:2024-02-01 after:2024-01-01".toList⟩
    let w : Variation :=
      ⟨"December, 2023".toList, "rust before:2024-01-01 after:2023-12-01".toList⟩
    variations cal "rust after:2020-05-05".toList 2 = .ok [v, w] ∧
      (Calendar.pinned today).resolve (some v.label) = month ∧
      Part.token (.pinned today) (.lastMonth (some v.label)) =
        .ok "after:2023-12-01".toList := by
  intro cal today month v w
  have hv : variations cal "rust after:2020-05-05".toList 2 = .ok [v, w] := by decide +kernel
  have hafter : v.query.words.filter (operatorStart PartKind.after.name).isPrefixOf =
      [boundToken .after month] := by decide +kernel
  have hnext : w.query.words.filter (operatorStart PartKind.after.name).isPrefixOf =
      ["after:2023-12-01".toList] := by decide +kernel
  obtain ⟨d, hday, hbound, hlabel⟩ := (variations_label hv).2 0 v rfl
  have hdate : operatorDate d = operatorDate month :=
    List.append_cancel_left (List.cons.inj (hbound.symm.trans hafter)).1
  obtain rfl : d = month := Option.some.inj <|
    (Date.firstOfIndex?_eq_some_iff.mpr ⟨operatorDate_eq_iff.mp hdate, hday⟩).symm.trans
      (Date.firstOfIndex?_eq_some_iff.mpr ⟨rfl, rfl⟩)
  obtain ⟨hres, htoken⟩ := hlabel (by decide) (by decide) today
  obtain ⟨t, ht, hwords⟩ := htoken w rfl
  obtain rfl : "after:2023-12-01".toList = t := (List.cons.inj (hnext.symm.trans hwords)).1
  exact ⟨hv, hres, ht⟩

end Query

end JobSearch
