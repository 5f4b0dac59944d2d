import JobSearch.Proofs.Calendar.Recognizer
import JobSearch.Proofs.Calendar.Month
import JobSearch.Calendar.Clock

/-!
# How far back a text can lead

A year in a text has four digits, and so has a number of months ago. So the day that a text names
lies in no year before 0, or else at most 9999 months before the day from which it is seen.
-/

namespace JobSearch

namespace Date

/-- A day found by the numbers of a month lies in that month. -/
theorem monthIndex_of_ofYMD? {i : Int} {day : Nat} {e : Date}
    (h : ofYMD? (yearOfIndex i) (monthOfIndex i) day = some e) : e.monthIndex = i := by
  unfold ofYMD? at h
  split at h
  · obtain rfl := Option.some.inj h
    simp only [monthIndex, yearOfIndex, monthOfIndex]
    omega
  · cases h

theorem year_of_ofYMD? {year : Int} {month day : Nat} {e : Date}
    (h : ofYMD? year month day = some e) : e.year = year := by
  unfold ofYMD? at h
  split at h
  · obtain rfl := Option.some.inj h
    rfl
  · cases h

/-- Moving a day by months moves its month by as many. -/
theorem monthIndex_of_addMonths? {d e : Date} {k : Int} (h : d.addMonths? k = some e) :
    e.monthIndex = d.monthIndex + k :=
  monthIndex_of_ofYMD? h

/-- The day before lies in the same month or in the month before. -/
theorem monthIndex_of_yesterday? {d e : Date} (h : d.yesterday? = some e) :
    d.monthIndex - 1 ≤ e.monthIndex := by
  unfold yesterday? at h
  by_cases hd : 1 < d.day
  · rw [if_pos hd, ← yearOfIndex_monthIndex d, ← monthOfIndex_monthIndex d] at h
    have := monthIndex_of_ofYMD? h
    omega
  · rw [if_neg hd] at h
    have := monthIndex_of_ofYMD? h
    omega

/-- The day after lies in no earlier month. -/
theorem monthIndex_of_tomorrow? {d e : Date} (h : d.tomorrow? = some e) :
    d.monthIndex ≤ e.monthIndex := by
  unfold tomorrow? at h
  split at h
  · rw [← yearOfIndex_monthIndex d, ← monthOfIndex_monthIndex d] at h
    have := monthIndex_of_ofYMD? h
    omega
  · have := (firstOfIndex?_eq_some_iff.mp h).1
    omega

/-- The day lies in no year before 0, or at most 9999 months before the reference day. -/
def IsWithinReach (reference d : Date) : Prop :=
  0 ≤ d.monthIndex ∨ reference.monthIndex - 9999 ≤ d.monthIndex

/-- A day of a year without a sign is within reach of any day. -/
theorem isWithinReach_of_ofYMD? {reference d : Date} {year month day : Nat}
    (h : ofYMD? year month day = some d) : IsWithinReach reference d := by
  have hy := year_of_ofYMD? h
  left
  simp only [monthIndex, hy]
  omega

end Date

namespace Phrase

open Date

variable {reference d : Date}

/-- A relative phrase whose number of months has four digits at most stays within reach. -/
theorem Relative.isWithinReach {p : Relative} {t : Text} (hp : SpellsRelative p t)
    (h : p.day? reference = some d) : IsWithinReach reference d := by
  right
  have words {ws : List Text} (h : (Relative.words ws).day? reference = some d) :
      reference.monthIndex - 9999 ≤ d.monthIndex := by
    simp only [Relative.day?] at h
    split at h
    · obtain rfl := Option.some.inj h
      omega
    · split at h
      · have := monthIndex_of_yesterday? h
        omega
      · split at h
        · have := monthIndex_of_tomorrow? h
          omega
        · split at h
          · have := monthIndex_of_addMonths? h
            omega
          · split at h
            · have := monthIndex_of_addMonths? h
              omega
            · cases h
  cases hp with
  | single _ => exact words h
  | pair _ _ _ => exact words h
  | @ago count _ _ _ _ hc _ _ _ _ =>
    simp only [Relative.day?, Option.bind_eq_bind, Option.bind_eq_some_iff] at h
    obtain ⟨n, hn, hd⟩ := h
    have hm := monthIndex_of_addMonths? hd
    have hlt : n < Nat.pow 10 count.length := Text.lt_pow_of_toNat? hn
    have hpow : Nat.pow 10 count.length ≤ 10000 :=
      Nat.pow_le_pow_right (by decide : 0 < 10) hc.1.2
    have hmany : n < 10000 := Nat.lt_of_lt_of_le hlt hpow
    omega

/-- Every form names days within reach only. -/
theorem isWithinReach_of_day? {form : Form} (hform : form ∈ forms) {here there : Cursor}
    {p : form.Pieces} (hp : (p, there) ∈ form.pattern.run here)
    (h : form.day? reference p = some d) : IsWithinReach reference d := by
  simp only [forms, List.mem_cons, List.not_mem_nil, or_false] at hform
  rcases hform with rfl | rfl | rfl | rfl | rfl
  case inr.inr.inr.inr =>
    obtain ⟨-, -, t, ht, -⟩ := relative_reads.mp hp
    exact Relative.isWithinReach ht h
  all_goals
    simp only [isoDay, yearMonth, monthDayYear, dayMonthYear, dayOfDigits?, Option.bind_eq_bind,
      Option.bind_eq_some_iff] at h
  · obtain ⟨_, -, _, -, _, -, h⟩ := h
    exact isWithinReach_of_ofYMD? h
  · obtain ⟨_, -, _, -, _, -, h⟩ := h
    exact isWithinReach_of_ofYMD? h
  · obtain ⟨_, -, _, -, h⟩ := h
    exact isWithinReach_of_ofYMD? h
  · obtain ⟨_, -, _, -, _, -, h⟩ := h
    exact isWithinReach_of_ofYMD? h

end Phrase

/-- The day recognized in a text is within reach of the reference day. -/
theorem Recognizer.isWithinReach_of_recognize {t : Text} {reference d : Date}
    (h : recognize t reference = some d) : Date.IsWithinReach reference d := by
  obtain ⟨place, n, form, hform, hnames, -⟩ := exists_of_recognize h
  obtain ⟨p, there, hp, hd⟩ := Phrase.Form.exists_mem_of_dayAt? hnames
  exact Phrase.isWithinReach_of_day? (List.mem_of_getElem? hform) hp hd

/-- Whatever a text says, it resolves to a day within reach of today. -/
theorem Calendar.isWithinReach_resolve (today : Date) (t : Option Text) :
    Date.IsWithinReach today ((Calendar.pinned today).resolve t) := by
  have htoday : Date.IsWithinReach today today := by
    right
    omega
  unfold Calendar.resolve
  split
  · exact htoday
  · next q _ =>
    cases h : (Calendar.pinned today).recognize q (Calendar.pinned today).today with
    | none => exact htoday
    | some d => exact Recognizer.isWithinReach_of_recognize h

end JobSearch
