import JobSearch.Proofs.Calendar.Bound

/-!
# Labels as dates

The label of a month is a text that people may type, and it names the first day of that month. No
form of numbers is read there, since a label starts with the name of the month.
-/

namespace JobSearch

open Phrase Pattern

/-- The name of a month may stand in a phrase. -/
theorem plain_monthName_mem (d : Date) : plain (monthName d.month) ∈ monthNames := by
  have hall : ∀ m < 13, plain (monthName m) ∈ monthNames := by decide +kernel
  exact hall d.month (Nat.lt_succ_of_le d.isDay.2.1.2)

/-- The name of a month tells its number. -/
theorem monthNumber?_monthName (d : Date) : monthNumber? (monthName d.month) = some d.month := by
  have hall : ∀ m < 13, 1 ≤ m → monthNumber? (monthName m) = some m := by decide +kernel
  exact hall d.month (Nat.lt_succ_of_le d.isDay.2.1.2) d.isDay.2.1.1

variable {d : Date}

/-- The label of a month whose year needs no sign. -/
theorem monthLabel_eq (hy : 0 ≤ d.year ∧ d.year ≤ 9999) :
    monthLabel d = monthName d.month ++ ", ".toList ++
      Text.padZero 4 (Text.ofNat d.year.natAbs) := by
  rw [monthLabel, signedYear, if_neg (by omega), if_neg (by omega)]

/-- A label is the name of a month and a year, with no day between them. -/
theorem spellsMonthDayYear_monthLabel (hy : 0 ≤ d.year ∧ d.year ≤ 9999) :
    SpellsMonthDayYear
      (monthName d.month, none, Text.padZero 4 (Text.ofNat d.year.natAbs)) (monthLabel d) := by
  have hspace : IsBlanks [' '] := ⟨by simp, fun c hc => List.mem_singleton.mp hc ▸ rfl⟩
  rw [monthLabel_eq hy]
  exact .noDay (plain_monthName_mem d) (Or.inl rfl) (Or.inr rfl) hspace
    (Recognizer.isNumber_year hy)

/-- A label is made of words with single spaces between them. -/
theorem exists_monthLabel_eq_unwords (hy : 0 ≤ d.year ∧ d.year ≤ 9999) :
    ∃ ws, monthLabel d = Text.unwords ws ∧ ws ≠ [] ∧ ∀ w ∈ ws, Text.IsWord w := by
  have hname : Text.IsWord (monthName d.month ++ [',']) := by
    have hall : ∀ m < 13, Text.IsWord (monthName m ++ [',']) := by decide
    exact hall d.month (Nat.lt_succ_of_le d.isDay.2.1.2)
  have hyear : Text.IsWord (Text.padZero 4 (Text.ofNat d.year.natAbs)) :=
    ⟨(Recognizer.isNumber_year hy).ne_nil, fun c hc =>
      Text.not_isBlank_of_isDigit (Text.isDigit_of_mem_padZero hc)⟩
  refine ⟨[monthName d.month ++ [','], Text.padZero 4 (Text.ofNat d.year.natAbs)], ?_, by simp, ?_⟩
  · rw [monthLabel_eq hy, Text.unwords_cons_cons, Text.unwords_singleton]
    simp
  · simp only [List.forall_mem_cons, hname, hyear, true_and]
    simp

namespace Recognizer

variable {reference : Date}

/-- The form of a month name and a year names the month at the start of its label. -/
theorem names_monthLabel (hd : d.day = 1) (hy : 0 ≤ d.year ∧ d.year ≤ 9999) :
    Names monthDayYear reference (monthLabel d) 0 d := by
  have hend : monthLabel d = monthLabel d ++ [] := (List.append_nil _).symm
  have hmem : (_, _) ∈ monthDayYear.pattern.run ⟨none, monthLabel d⟩ :=
    monthDayYearGrammar.mem_run_of_spells (spellsMonthDayYear_monthLabel hy) rfl hend rfl
  have hday : Date.ofYMD? d.year.natAbs d.month 1 = some d := by
    rw [Int.natAbs_of_nonneg hy.1, ← hd, Date.ofYMD?_self]
  rw [Names, Cursor.move, Form.dayAt?_eq_of_mem monthDayYearGrammar hmem]
  simp only [monthDayYear, Text.toNat?_padZero, monthNumber?_monthName d, Option.bind_eq_bind,
    Option.bind_some, Option.bind_none, Option.getD_none]
  exact hday

/-- A form whose texts start with a year in digits names nothing there. -/
theorem not_names_monthLabel {form : Form} (g : form.Grammar)
    (hopens : ∀ w, g.opens w → (lead w).length = 4) (hy : 0 ≤ d.year ∧ d.year ≤ 9999) {e : Date} :
    ¬ Names form reference (monthLabel d) 0 e := by
  intro h
  obtain ⟨p, there, hmem, -⟩ := Form.exists_mem_of_dayAt? h
  obtain ⟨v, vs, hv⟩ := monthDayYearGrammar.words (spellsMonthDayYear_monthLabel hy)
  -- The first word of the label would be the year and the name of the month.
  have hlen := hopens v (g.opens_of_runs_eq hmem hv.spaced.runs_eq)
  have hnil : lead v = [] := hv.head
  rw [hnil] at hlen
  cases hlen

/-- The label of a month names its first day, from every day on. -/
theorem recognize_monthLabel (hd : d.day = 1) (hy : 0 ≤ d.year ∧ d.year ≤ 9999) :
    recognize (monthLabel d) reference = some d := by
  refine recognize_eq_of_names (n := 2) rfl (names_monthLabel hd hy)
    (fun form hform place e h => Nat.zero_le place) fun m hm form e hform => ?_
  obtain rfl | rfl : m = 0 ∨ m = 1 := by omega
  · obtain rfl : isoDay = form := Option.some.inj hform
    exact not_names_monthLabel isoDayGrammar (fun w hw => hw) hy
  · obtain rfl : yearMonth = form := Option.some.inj hform
    exact not_names_monthLabel yearMonthGrammar (fun w hw => hw) hy

end Recognizer

end JobSearch
