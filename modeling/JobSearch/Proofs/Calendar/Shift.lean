import Mathlib.Algebra.Group.Int.Defs
import JobSearch.Proofs.Calendar.Chronology

/-!
# Moving by months

Moving by months adds to the number of the month for as long as the calendar lasts. So moves add up,
a move back leads to the month from which it came, and moves keep months in the order of time. For
an offset of 32 bits, words of 64 bits hold everything that is calculated on the way.
-/

namespace JobSearch

/-- The number, if a signed word of this many bits holds it. -/
def signed? (bits : Nat) (n : Int) : Option Int :=
  if -2 ^ (bits - 1) ≤ n ∧ n < 2 ^ (bits - 1) then some n else none

/-- The number, if an unsigned word of this many bits holds it. -/
def unsigned? (bits : Nat) (n : Int) : Option Int :=
  if 0 ≤ n ∧ n < 2 ^ bits then some n else none

/-- Moving by months, calculated step by step in words of a machine. There is no result if the word
of a step does not hold its value. -/
def shiftMonthInWords? (d : Date) (months : Int32) : Option (Except QueryError Date) := do
  let year ← signed? 32 d.year
  let fromZero ← unsigned? 32 (d.month - 1)
  let scaled ← signed? 64 (year * 12)
  let start ← signed? 64 (scaled + fromZero)
  let index ← signed? 64 (start + months.toInt)
  let quotient ← signed? 64 (index / 12)
  let newYear ← signed? 32 quotient
  let remainder ← signed? 64 (index % 12)
  let newFromZero ← unsigned? 32 remainder
  let newMonth ← unsigned? 32 (newFromZero + 1)
  return match Date.ofYMD? newYear newMonth.toNat 1 with
    | some e => .ok e
    | none => .error (.dateOutOfRange d months.toInt)

theorem signed?_eq_some {bits : Nat} {n : Int} (h : -2 ^ (bits - 1) ≤ n ∧ n < 2 ^ (bits - 1)) :
    signed? bits n = some n :=
  if_pos h

theorem unsigned?_eq_some {bits : Nat} {n : Int} (h : 0 ≤ n ∧ n < 2 ^ bits) :
    unsigned? bits n = some n :=
  if_pos h

/-- The word of each step holds its value, and the result is the month that the numbers give. -/
theorem shiftMonthInWords?_eq (d : Date) (months : Int32) :
    shiftMonthInWords? d months = some (shiftMonth d months.toInt) := by
  obtain ⟨⟨hlow, hhigh⟩, hmonth, -⟩ := d.isDay
  rw [minYear] at hlow
  rw [maxYear] at hhigh
  have hk := months.le_toInt
  have hk' := months.toInt_lt
  rw [shiftMonthInWords?, shiftMonth, Date.firstOfIndex?]
  generalize months.toInt = k at hk hk' ⊢
  have hindex : d.year * 12 + ((d.month : Int) - 1) + k = d.monthIndex + k := by
    rw [Date.monthIndex]
    omega
  have hnumber : (d.monthIndex + k) % 12 + 1 = Date.monthOfIndex (d.monthIndex + k) := by
    rw [Date.monthOfIndex]
    omega
  -- The years of the calendar have six digits, so each value stays far inside its word.
  simp (disch := omega) only [signed?_eq_some, unsigned?_eq_some, Option.bind_eq_bind,
    Option.bind_some]
  simp only [hindex, hnumber, Int.toNat_natCast]
  rfl

variable {d e f : Date} {a b k : Int}

/-- The month and the day to which a move leads. -/
theorem shiftMonth_eq_ok_iff_monthIndex :
    shiftMonth d k = .ok e ↔ e.day = 1 ∧ e.monthIndex = d.monthIndex + k := by
  rw [shiftMonth_eq_ok_iff, Date.firstOfIndex?_eq_some_iff, and_comm]

/-- A move leads somewhere exactly if it stays in the calendar. -/
theorem exists_shiftMonth_eq_ok_iff :
    (∃ e, shiftMonth d k = .ok e) ↔
      Date.firstIndex ≤ d.monthIndex + k ∧ d.monthIndex + k ≤ Date.lastIndex := by
  simp only [shiftMonth_eq_ok_iff, ← Option.ne_none_iff_exists', Ne, Date.firstOfIndex?_eq_none_iff]
  omega

/-- After a move, another one goes on from where the first day would. -/
theorem shiftMonth_of_shiftMonth (h : shiftMonth d a = .ok e) :
    shiftMonth e b = .ok f ↔ shiftMonth d (a + b) = .ok f := by
  have hi := (shiftMonth_eq_ok_iff_monthIndex.mp h).2
  rw [shiftMonth_eq_ok_iff, shiftMonth_eq_ok_iff, hi, Int.add_assoc]

/-- A move back leads to the first day of the month from which the move came. -/
theorem shiftMonth_neg_of_shiftMonth (h : shiftMonth d a = .ok e) :
    shiftMonth e (-a) = shiftMonth d 0 := by
  obtain ⟨f, hf⟩ : ∃ f, shiftMonth d 0 = .ok f := by
    rw [exists_shiftMonth_eq_ok_iff, Int.add_zero]
    exact d.monthIndex_mem
  rw [hf, shiftMonth_of_shiftMonth h, Int.add_right_neg, hf]

/-- Moved days are in the order of the months to which the moves lead. -/
theorem compare_of_shiftMonth {d' e' : Date} {k' : Int} (h : shiftMonth d k = .ok e)
    (h' : shiftMonth d' k' = .ok e') :
    e.compare e' = Ord.compare (d.monthIndex + k) (d'.monthIndex + k') := by
  obtain ⟨hd, hi⟩ := shiftMonth_eq_ok_iff_monthIndex.mp h
  obtain ⟨hd', hi'⟩ := shiftMonth_eq_ok_iff_monthIndex.mp h'
  rw [Date.compare_of_day_eq (hd.trans hd'.symm), hi, hi']

/-- Moves of one day are in the order of their offsets. -/
theorem compare_shiftMonth_offsets (he : shiftMonth d a = .ok e) (hf : shiftMonth d b = .ok f) :
    e.compare f = Ord.compare a b := by
  rw [compare_of_shiftMonth he hf]
  simp only [Int.compare_eq_ite_lt, Int.add_lt_add_iff_left]

/-- Days that are moved alike stay in the order of their months. -/
theorem compare_shiftMonth_days {d' e' : Date} (h : shiftMonth d k = .ok e)
    (h' : shiftMonth d' k = .ok e') : e.compare e' = d.compareMonths d' := by
  rw [compare_of_shiftMonth h h', Date.compareMonths_eq]
  simp only [Int.compare_eq_ite_lt, Int.add_lt_add_iff_right]

theorem Date.compareMonths_ne_gt (h : d.compare e ≠ .gt) : d.compareMonths e ≠ .gt := by
  intro hm
  rw [Date.compare, hm] at h
  exact h rfl

/-- Moving by months is adding to the number of the month, from January of the year -262143 to
December of the year 262142; outside it fails and tells the day and the offset. For an offset of 32
bits no word of the calculation overflows. Moves add up, a move back leads to the first day of the
month from which it came, a larger offset leads to a later day, and days stay in order. -/
theorem shiftMonth_partial_action :
    (∀ (d : Date) (k : Int32), shiftMonthInWords? d k = some (shiftMonth d k.toInt)) ∧
    (∀ (d : Date) (k : Int),
      ((∃ e, shiftMonth d k = .ok e) ↔
        12 * -262143 ≤ d.monthIndex + k ∧ d.monthIndex + k ≤ 12 * 262142 + 11) ∧
      (∀ e, shiftMonth d k = .ok e ↔ e.day = 1 ∧ e.monthIndex = d.monthIndex + k) ∧
      ∀ error, shiftMonth d k = .error error ↔
        ¬ (12 * -262143 ≤ d.monthIndex + k ∧ d.monthIndex + k ≤ 12 * 262142 + 11) ∧
          error = .dateOutOfRange d k) ∧
    (∀ (d e : Date) (a : Int), shiftMonth d a = .ok e →
      (∀ b f, shiftMonth e b = .ok f ↔ shiftMonth d (a + b) = .ok f) ∧
      shiftMonth e (-a) = shiftMonth d 0) ∧
    (∀ (d e f : Date) (a b : Int), shiftMonth d a = .ok e → shiftMonth d b = .ok f →
      e.compare f = Ord.compare a b) ∧
    ∀ (d d' e e' : Date) (k : Int), shiftMonth d k = .ok e → shiftMonth d' k = .ok e' →
      e.compare e' = d.compareMonths d' ∧ (d.compare d' ≠ .gt → e.compare e' ≠ .gt) := by
  refine ⟨shiftMonthInWords?_eq, fun d k => ⟨exists_shiftMonth_eq_ok_iff, fun e =>
    shiftMonth_eq_ok_iff_monthIndex, fun error => ?_⟩, fun d e a h => ⟨fun b f =>
    shiftMonth_of_shiftMonth h, shiftMonth_neg_of_shiftMonth h⟩, fun d e f a b =>
    compare_shiftMonth_offsets, fun d d' e e' k h h' => ?_⟩
  · rw [shiftMonth_eq_error_iff, Date.firstIndex, Date.lastIndex, minYear, maxYear]
    refine and_congr_left fun _ => ?_
    omega
  · have hcompare := compare_shiftMonth_days h h'
    refine ⟨hcompare, fun hd => ?_⟩
    rw [hcompare]
    exact Date.compareMonths_ne_gt hd

/-- Down from January of the year 0, and out of the calendar with the least offset of 32 bits. -/
theorem shiftMonth_partial_action_year_zero :
    let d : Date := ⟨0, 1, 31, by decide⟩
    let e : Date := ⟨-1, 12, 1, by decide⟩
    let f : Date := ⟨-1, 1, 1, by decide⟩
    (shiftMonth d (-1) = .ok e ∧ shiftMonth d (-12) = .ok f) ∧
      shiftMonthInWords? d Int32.minValue = some (.error (.dateOutOfRange d (-2147483648))) ∧
      shiftMonth e (-11) = .ok f ∧ shiftMonth e 1 = shiftMonth d 0 ∧ f.compare e = .lt := by
  intro d e f
  obtain ⟨hwords, hshift, hmoves, hoffsets, -⟩ := shiftMonth_partial_action
  have he : shiftMonth d (-1) = .ok e := ((hshift d (-1)).2.1 e).mpr (by decide)
  have hf : shiftMonth d (-12) = .ok f := ((hshift d (-12)).2.1 f).mpr (by decide)
  have hout : shiftMonth d (-2147483648) = .error (.dateOutOfRange d (-2147483648)) :=
    ((hshift d _).2.2 _).mpr (by decide)
  obtain ⟨hadd, hback⟩ := hmoves d e (-1) he
  refine ⟨⟨he, hf⟩, ?_, (hadd (-11) f).mpr hf, hback, hoffsets d f e _ _ hf he⟩
  rw [hwords, ← hout]
  rfl

end JobSearch
