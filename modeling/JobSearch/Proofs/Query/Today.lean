import JobSearch.Proofs.Calendar.Absolute
import JobSearch.Proofs.Calendar.Month
import JobSearch.Query.Sweep

/-!
# Queries that do not depend on today

A text in which a form without a clock names a day in front of all phrases that count from today
resolves to that day, whatever day it is. A query takes nothing else from the calendar, so neither
the month before that day nor a sweep depends on today.
-/

namespace JobSearch

open Phrase Recognizer

namespace Calendar

/-- A text resolves to the day that it names as it stands, or to today. -/
theorem resolve_pinned (today : Date) (t : Text) :
    (pinned today).resolve (some t) = (Recognizer.recognize t today).getD today := by
  rw [resolve, question?]
  cases hblank : t.isAllBlank with
  | true =>
    rw [recognize_of_isAllBlank hblank]
    rfl
  | false =>
    rw [← recognize_trim t]
    rfl

/-- Where a form without a clock names a day in front of all phrases that count from today, the text
resolves to a day that such a form names, whatever day it is. So the month before it, its token and
every sweep are the same for any two days, errors included. -/
theorem pinned_eq_of_absoluteFirst {t : Text} (h : AbsoluteFirst t) :
    (∃ d, (∃ form ∈ absoluteForms, ∃ place, ∀ reference, Names form reference t place d) ∧
      ∀ today, (pinned today).resolve (some t) = d) ∧
    ∀ r s : Date,
      (pinned r).resolve (some t) = (pinned s).resolve (some t) ∧
      (pinned r).lastMonth (some t) = (pinned s).lastMonth (some t) ∧
      Part.token (pinned r) (.lastMonth (some t)) = Part.token (pinned s) (.lastMonth (some t)) ∧
      ∀ count, Query.variations (pinned r) t count = Query.variations (pinned s) t count := by
  obtain ⟨d, hnames, hd⟩ := h.exists_recognize
  have hresolve (today : Date) : (pinned today).resolve (some t) = d := by
    rw [resolve_pinned, hd, Option.getD_some]
  refine ⟨⟨d, hnames, hresolve⟩, fun r s => ?_⟩
  have heq := (hresolve r).trans (hresolve s).symm
  have hlast : (pinned r).lastMonth (some t) = (pinned s).lastMonth (some t) := by
    rw [lastMonth, heq, lastMonth]
  refine ⟨heq, hlast, ?_, fun count => ?_⟩
  · rw [Part.token, hlast, Part.token]
  · rw [Query.variations, heq, Query.variations]

/-- A day that does not exist hides nothing: the year and the month at its place name a day, and
`today` stands behind it. -/
theorem pinned_eq_of_absoluteFirst_hidden_day :
    let t : Text := " on 2023-02-31 , today ".toList
    let r : Date := ⟨2024, 7, 20, by decide⟩
    let s : Date := ⟨1999, 1, 31, by decide⟩
    (pinned r).resolve (some t) = ⟨2023, 2, 1, by decide⟩ ∧
      (pinned r).resolve (some t) = (pinned s).resolve (some t) ∧
      (pinned r).lastMonth (some t) = .ok ⟨2023, 1, 1, by decide⟩ ∧
      (pinned r).lastMonth (some t) = (pinned s).lastMonth (some t) ∧
      Part.token (pinned r) (.lastMonth (some t)) = Part.token (pinned s) (.lastMonth (some t)) ∧
      Query.variations (pinned r) t 2 = Query.variations (pinned s) t 2 := by
  intro t r s
  have habs : AbsoluteFirst t := by
    refine ⟨yearMonth, by simp [absoluteForms], 4, r, ⟨2023, 2, 1, by decide⟩, ?_, ?_⟩
    · unfold Names
      decide +kernel
    · rintro place' ⟨p, there, hp⟩
      have hnone : ∀ n < 5, relative.pattern.run (Cursor.move ⟨none, t⟩ n) = [] := by
        decide +kernel
      refine Nat.lt_of_not_le fun hle => ?_
      rw [hnone place' (Nat.lt_succ_of_le hle)] at hp
      cases hp
  obtain ⟨-, hsame⟩ := pinned_eq_of_absoluteFirst habs
  obtain ⟨hresolve, hlast, htoken, hsweep⟩ := hsame r s
  have hday : (pinned r).resolve (some t) = ⟨2023, 2, 1, by decide⟩ := by decide +kernel
  refine ⟨hday, hresolve, ?_, hlast, htoken, hsweep 2⟩
  rw [lastMonth, hday]
  exact shiftMonth_eq_ok_iff.mpr (by decide)

end Calendar

end JobSearch
