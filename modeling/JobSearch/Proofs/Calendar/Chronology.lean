import JobSearch.Proofs.Calendar.Month

/-!
# The order of days

Days are ordered by year, month and day, and their months by the numbers of the months. A month in
operator form has a fixed width if its year needs no sign and has at most four digits, and then its
place among such texts is its place in time.
-/

namespace JobSearch

namespace Date

/-- The order of the months of two days: by year, then by month. -/
def compareMonths (d e : Date) : Ordering :=
  (Ord.compare d.year e.year).then (Ord.compare d.month e.month)

/-- The order of two days in time. -/
def compare (d e : Date) : Ordering := (d.compareMonths e).then (Ord.compare d.day e.day)

/-- Months are ordered by their numbers. -/
theorem compareMonths_eq (d e : Date) :
    d.compareMonths e = Ord.compare d.monthIndex e.monthIndex := by
  have hd := d.isDay.2.1
  have he := e.isDay.2.1
  have hmonth : Ord.compare (d.month - 1) (e.month - 1) = Ord.compare d.month e.month := by
    simp only [Nat.compare_eq_ite_lt]
    grind
  rw [monthIndex, monthIndex, Text.compare_mul_add (by omega) (by omega), hmonth, compareMonths]

/-- Days with one number in their months are ordered by the numbers of the months. -/
theorem compare_of_day_eq {d e : Date} (h : d.day = e.day) :
    d.compare e = Ord.compare d.monthIndex e.monthIndex := by
  rw [compare, h, Std.compare_self, Ordering.then_eq, compareMonths_eq]

end Date

/-- Texts of one length are compared before what stands behind them. -/
theorem Text.compare_append {a b : Text} (h : a.length = b.length) (s t : Text) :
    Ord.compare (a ++ s) (b ++ t) = (Ord.compare a b).then (Ord.compare s t) := by
  induction a generalizing b with
  | nil =>
    obtain rfl := List.length_eq_zero_iff.mp h.symm
    rfl
  | cons c a ih =>
    cases b with
    | nil => cases h
    | cons d b =>
      rw [List.cons_append, List.cons_append, List.compare_cons_cons, List.compare_cons_cons,
        ih (Nat.succ.inj h), Ordering.then_assoc]

/-- Months in operator form are ordered in time, if their years need no sign. -/
theorem compare_operatorDate {d e : Date} (hd : 0 ≤ d.year ∧ d.year ≤ 9999)
    (he : 0 ≤ e.year ∧ e.year ≤ 9999) :
    Ord.compare (operatorDate d) (operatorDate e) = d.compareMonths e := by
  have hyear {f : Date} (hf : 0 ≤ f.year ∧ f.year ≤ 9999) :
      operatorYear f.year = Text.padZero 4 (Text.ofNat f.year.natAbs) ∧
        f.year.natAbs < Nat.pow 10 4 := by
    have hlt : f.year.natAbs ≤ 9999 := by omega
    exact ⟨if_neg (by omega), Nat.lt_of_le_of_lt hlt (by decide)⟩
  obtain ⟨hdy, hdlt⟩ := hyear hd
  obtain ⟨hey, helt⟩ := hyear he
  have hlen : (operatorYear d.year).length = (operatorYear e.year).length := by
    rw [hdy, hey, Text.length_padZero_ofNat (by decide) hdlt,
      Text.length_padZero_ofNat (by decide) helt]
  have hyears : Ord.compare (operatorYear d.year) (operatorYear e.year) =
      Ord.compare d.year e.year := by
    rw [hdy, hey, Text.compare_padZero (by decide) hdlt helt, ← Text.compare_natCast,
      Int.natAbs_of_nonneg hd.1, Int.natAbs_of_nonneg he.1]
  have hmonths : Ord.compare (twoDigits d.month) (twoDigits e.month) =
      Ord.compare d.month e.month :=
    Text.compare_padZero (by decide) (Nat.lt_of_le_of_lt d.isDay.2.1.2 (by decide))
      (Nat.lt_of_le_of_lt e.isDay.2.1.2 (by decide))
  have hfront : (operatorYear d.year ++ '-' :: twoDigits d.month).length =
      (operatorYear e.year ++ '-' :: twoDigits e.month).length := by
    simp only [List.length_append, List.length_cons, hlen, length_twoDigits_month]
  rw [operatorDate, operatorDate, Text.compare_append hfront, Std.compare_self, Ordering.then_eq,
    Text.compare_append hlen, List.compare_cons_cons, Std.compare_self, Ordering.eq_then, hyears,
    hmonths, Date.compareMonths]

end JobSearch
