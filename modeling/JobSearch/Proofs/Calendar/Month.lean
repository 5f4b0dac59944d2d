import JobSearch.Calendar.Month
import JobSearch.Proofs.Text.Number
import JobSearch.Proofs.Text.Words

/-!
# Months by number

A month is known by its number since January of year 0, and moving by months adds to that number
until the calendar ends. A month in operator form is one word of digits and hyphens.
-/

namespace JobSearch

namespace Date

/-- The number of the first month of the calendar. -/
def firstIndex : Int := 12 * minYear

/-- The number of the last month of the calendar. -/
def lastIndex : Int := 12 * maxYear + 11

/-- The first day of the calendar. -/
def first : Date := ⟨minYear, 1, 1, by decide⟩

/-- A day lies in a month of the calendar. -/
theorem monthIndex_mem (d : Date) : firstIndex ≤ d.monthIndex ∧ d.monthIndex ≤ lastIndex := by
  obtain ⟨hy, hm, -⟩ := d.isDay
  simp only [firstIndex, lastIndex, monthIndex]
  omega

/-- The first day with a given number of its month is the only one. -/
theorem firstOfIndex?_eq_some_iff {i : Int} {d : Date} :
    firstOfIndex? i = some d ↔ d.monthIndex = i ∧ d.day = 1 := by
  constructor
  · intro h
    rw [firstOfIndex?, ofYMD?] at h
    split at h
    · obtain rfl := Option.some.inj h
      refine ⟨?_, rfl⟩
      simp only [monthIndex, yearOfIndex, monthOfIndex]
      omega
    · cases h
  · rintro ⟨rfl, hd⟩
    rw [firstOfIndex?, yearOfIndex_monthIndex, monthOfIndex_monthIndex, ← hd, ofYMD?_self]

theorem firstOfIndex?_first : firstOfIndex? firstIndex = some first := by
  rw [firstOfIndex?_eq_some_iff]
  exact ⟨rfl, rfl⟩

theorem one_le_daysInMonth (year : Int) (month : Nat) : 1 ≤ daysInMonth year month := by
  unfold daysInMonth
  split
  · split <;> decide
  all_goals decide

theorem isDay_first_iff {i : Int} :
    IsDay (yearOfIndex i) (monthOfIndex i) 1 ↔ firstIndex ≤ i ∧ i ≤ lastIndex := by
  have hd := one_le_daysInMonth (yearOfIndex i) (monthOfIndex i)
  have hm : 1 ≤ monthOfIndex i ∧ monthOfIndex i ≤ 12 := by
    simp only [monthOfIndex]
    omega
  simp only [IsDay, hd, hm, Nat.le_refl, and_true]
  rw [yearOfIndex, firstIndex, lastIndex]
  omega

/-- Exactly the months of the calendar have a first day. -/
theorem firstOfIndex?_eq_none_iff {i : Int} :
    firstOfIndex? i = none ↔ i < firstIndex ∨ lastIndex < i := by
  rw [firstOfIndex?, ofYMD?]
  split
  · next h =>
    have hi := isDay_first_iff.mp h
    simp only [reduceCtorEq, false_iff]
    omega
  · next h =>
    rw [isDay_first_iff] at h
    simp only [true_iff]
    omega

/-- Every month of the calendar has a first day. -/
theorem exists_firstOfIndex? {i : Int} (h : firstIndex ≤ i ∧ i ≤ lastIndex) :
    ∃ d, firstOfIndex? i = some d := by
  rw [← Option.ne_none_iff_exists']
  exact fun hn => by have := firstOfIndex?_eq_none_iff.mp hn; omega

end Date

/-- Moving by months is adding to the number of the month. -/
theorem shiftMonth_eq_ok_iff {d e : Date} {k : Int} :
    shiftMonth d k = .ok e ↔ Date.firstOfIndex? (d.monthIndex + k) = some e := by
  rw [shiftMonth]
  cases h : Date.firstOfIndex? (d.monthIndex + k) with
  | none => simp only [reduceCtorEq]
  | some f => simp only [Except.ok.injEq, Option.some.injEq]

/-- Moving by months fails exactly when it leaves the calendar, and tells what was asked for. -/
theorem shiftMonth_eq_error_iff {d : Date} {k : Int} {e : QueryError} :
    shiftMonth d k = .error e ↔
      (d.monthIndex + k < Date.firstIndex ∨ Date.lastIndex < d.monthIndex + k) ∧
        e = .dateOutOfRange d k := by
  rw [shiftMonth, ← Date.firstOfIndex?_eq_none_iff]
  cases h : Date.firstOfIndex? (d.monthIndex + k) with
  | none => simp only [Except.error.injEq, true_and, eq_comm]
  | some f => simp only [reduceCtorEq, false_and]

/-- A month in operator form is written with digits and hyphens only. -/
theorem mem_operatorDate {d : Date} {c : Char} (h : c ∈ operatorDate d) :
    c.isDigit = true ∨ c = '-' := by
  rw [operatorDate, List.mem_append, List.mem_append, List.mem_cons] at h
  rcases h with (h | rfl | h) | h
  · rw [operatorYear] at h
    split at h
    · rcases List.mem_cons.mp h with h | h
      · exact Or.inr h
      · exact Or.inl (Text.isDigit_of_mem_padZero h)
    · exact Or.inl (Text.isDigit_of_mem_padZero h)
  · exact Or.inr rfl
  · exact Or.inl (Text.isDigit_of_mem_padZero h)
  · have hall : "-01".toList.all (fun b => b.isDigit || b == '-') = true := by decide
    simpa only [Bool.or_eq_true, beq_iff_eq] using List.all_eq_true.mp hall c h

/-- A month in operator form is one word. -/
theorem isWord_operatorDate (d : Date) : Text.IsWord (operatorDate d) := by
  refine ⟨by simp [operatorDate], fun c hc => ?_⟩
  rcases mem_operatorDate hc with hd | rfl
  · exact Text.not_isBlank_of_isDigit hd
  · rfl

theorem length_twoDigits_month (d : Date) : (twoDigits d.month).length = 2 :=
  Text.length_padZero_ofNat (by decide) (Nat.lt_of_le_of_lt d.isDay.2.1.2 (by decide))

/-- A year is told by its operator form: the sign by the first character, the rest by the digits. -/
theorem operatorYear_inj {x y : Int} (h : operatorYear x = operatorYear y) : x = y := by
  have habs {m n k l : Nat} (h : Text.padZero k (Text.ofNat m) = Text.padZero l (Text.ofNat n)) :
      m = n := Option.some.inj (by rw [← Text.toNat?_padZero k m, h, Text.toNat?_padZero])
  have hsign {k n : Nat} {r : Text} (h : Text.padZero k (Text.ofNat n) = '-' :: r) : False := by
    have hm : '-' ∈ Text.padZero k (Text.ofNat n) := h ▸ List.mem_cons_self ..
    exact absurd (Text.isDigit_of_mem_padZero hm) (by decide)
  rw [operatorYear, operatorYear] at h
  split at h
  · split at h
    · have := habs (List.cons.inj h).2
      omega
    · exact (hsign h.symm).elim
  · split at h
    · exact (hsign h).elim
    · have := habs h
      omega

/-- Two days have one operator form exactly when they lie in one month. -/
theorem operatorDate_eq_iff {d e : Date} :
    operatorDate d = operatorDate e ↔ d.monthIndex = e.monthIndex := by
  constructor
  · intro h
    have hl : ('-' :: twoDigits d.month).length = ('-' :: twoDigits e.month).length := by
      rw [List.length_cons, List.length_cons, length_twoDigits_month, length_twoDigits_month]
    obtain ⟨hy, hm⟩ := List.append_inj' (List.append_cancel_right h) hl
    have hy := operatorYear_inj hy
    have hm : d.month = e.month := Option.some.inj (by
      rw [← Text.toNat?_padZero 2 d.month, ← Text.toNat?_padZero 2 e.month]
      exact congrArg Text.toNat? (List.cons.inj hm).2)
    rw [Date.monthIndex, hy, hm, Date.monthIndex]
  · intro h
    have hy : d.year = e.year := by
      rw [← Date.yearOfIndex_monthIndex d, h, Date.yearOfIndex_monthIndex]
    have hm : d.month = e.month := by
      rw [← Date.monthOfIndex_monthIndex d, h, Date.monthOfIndex_monthIndex]
    rw [operatorDate, hy, hm, operatorDate]

end JobSearch
