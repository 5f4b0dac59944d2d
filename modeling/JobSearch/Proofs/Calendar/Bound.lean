import JobSearch.Proofs.Calendar.Month
import JobSearch.Proofs.Calendar.Recognizer

/-!
# Bounds as dates

The month of a bound is recognized where the bound stands, unless a day is named in front of it: no
phrase reaches across the name of a bound, so the text in front of it names what it names alone.
-/

namespace JobSearch

open Phrase

namespace Phrase.Form.Grammar

variable {form : Form} {here there : Cursor} {p : form.Pieces}

/-- No match reaches across the name of a bound. -/
theorem exists_eq_append_of_mem (g : form.Grammar) (h : (p, there) ∈ form.pattern.run here)
    {x rest : Text} (hafter : here.after = x ++ ("before".toList ++ ':' :: rest))
    (hx : Text.endsWord x = false) :
    ∃ t u, here.Passes t there ∧ Text.endsWord t = true ∧ x = t ++ u := by
  obtain ⟨t, w, ws, ht, hw, hsw⟩ := g.exists_of_mem h
  rcases List.append_eq_append_iff.mp (ht.1.symm.trans hafter) with ⟨u, hu, -⟩ | ⟨s, rfl, hs⟩
  · exact ⟨t, u, ht, hw.spaced.endsWord, hu⟩
  · by_cases hne : s = []
    · exact ⟨x ++ s, [], ht, hw.spaced.endsWord, by simp [hne]⟩
    · -- The name of the bound would be a word of the phrase.
      have hstart : Text.startsWord s = true := by
        rw [← Text.startsWord_append hne there.after, ← hs]
        rfl
      have hruns : Text.runs (s ++ there.after) = "before".toList :: Text.runs rest := by
        rw [← hs, Text.runs_append_cons (by decide), Text.runs_of_isRun (by decide)]
        rfl
      have hmem : "before".toList ∈ Text.runs (x ++ s) := by
        rw [Text.runs_append_of_not_endsWord hx]
        exact List.mem_append_right _ (Text.mem_runs_of_append hstart hsw hruns)
      rw [hw.spaced.runs_eq] at hmem
      exact (hw.before_not_mem hmem).elim

end Phrase.Form.Grammar

namespace Recognizer

variable {base gap rest s a t u : Text} {reference : Date} {here there : Cursor}

/-- A phrase names the same day in another text if the same text precedes it there and no word goes
on behind it. -/
theorem dayAt?_move (hpass : Cursor.Passes ⟨none, s⟩ a here) {form : Form} (g : form.Grammar)
    {p : form.Pieces} (h : (p, there) ∈ form.pattern.run here) (ht : here.Passes t there)
    (hu : Text.startsWord u = false) (reference : Date) :
    form.dayAt? reference (Cursor.move ⟨none, a ++ (t ++ u)⟩ a.length) = form.day? reference p := by
  have hmove := Cursor.passes_move ⟨none, a ++ (t ++ u)⟩ a.length
  rw [List.take_left] at hmove
  generalize Cursor.move ⟨none, a ++ (t ++ u)⟩ a.length = here' at hmove
  have hafter : here'.after = t ++ u := (List.append_cancel_left hmove.1).symm
  have hbefore : here'.before = here.before := hmove.2.trans hpass.2.symm
  exact Form.dayAt?_eq_of_mem g
    (g.mem_run_of_passes h ht (hbefore ▸ g.before_of_mem h) hafter hu) reference

/-- No word starts inside the name of a bound. -/
theorem endsWord_of_before {y z : Text} (h : "before:".toList = y ++ z) (hy : y ≠ [])
    (hz : Text.startsWord z = true) : Text.endsWord y = true := by
  have hall : ∀ n < 8, Text.startsWord ("before:".toList.drop n) = true →
      "before:".toList.take n = [] ∨ Text.endsWord ("before:".toList.take n) = true := by decide
  have hlen : y.length < 8 := by
    have := congrArg List.length h
    rw [List.length_append] at this
    have h7 : "before:".toList.length = 7 := rfl
    omega
  have hn := hall y.length hlen
  rw [h, List.take_left, List.drop_left] at hn
  exact (hn hz).resolve_left hy

/-- No match starts inside the name of a bound. -/
theorem le_length_of_inside {form : Form} (g : form.Grammar) {p : form.Pieces} {y : Text}
    (hpass : Cursor.Passes ⟨none, s⟩ (a ++ y) here)
    (hafter : "before:".toList ++ rest = y ++ here.after)
    (h : (p, there) ∈ form.pattern.run here) : 7 ≤ y.length := by
  have h7 : "before:".toList.length = 7 := rfl
  have hbefore : "before".toList ++ ':' :: rest = "before:".toList ++ rest := rfl
  by_cases hne : y = []
  · -- A match that starts at the name would go across it.
    rw [hne, List.nil_append, ← hbefore] at hafter
    obtain ⟨t, u, -, htw, hnil⟩ := g.exists_eq_append_of_mem (x := []) h hafter.symm rfl
    rw [(List.append_eq_nil_iff.mp hnil.symm).1] at htw
    cases htw
  · rcases List.append_eq_append_iff.mp hafter with ⟨z, hz, -⟩ | ⟨z, hz, hr⟩
    · rw [hz, List.length_append]
      omega
    · by_cases hzne : z = []
      · rw [hz, hzne, List.append_nil] at h7
        omega
      · have hstart := g.startsWord_of_mem h
        have hzw : Text.startsWord z = true := by
          rwa [← Text.startsWord_append hzne rest, ← hr]
        have hb := (hpass.atBoundary_iff (by simp [hne])).mp (g.mem_run_iff.mp h).1
        rw [Text.endsWord_append hne, endsWord_of_before hz hne hzw, hstart] at hb
        exact (hb rfl).elim

/-- In front of the name of a bound, only those days are named that the text alone names. -/
theorem le_place_of_names (hgap : ∀ c ∈ gap, CharClass.isWord c = false)
    (hfront : Text.endsWord (base ++ gap) = false) (hnone : recognize base reference = none)
    {form : Form} (hform : form ∈ forms) {place : Nat} {d : Date}
    (h : Names form reference (base ++ gap ++ ("before".toList ++ ':' :: rest)) place d) :
    (base ++ gap).length + 7 ≤ place := by
  obtain ⟨g⟩ := exists_grammar hform
  obtain ⟨p, there, hmem, hd⟩ := Form.exists_mem_of_dayAt? h
  have hpass := Cursor.passes_move ⟨none, base ++ gap ++ ("before".toList ++ ':' :: rest)⟩ place
  have hlen : (List.take place (base ++ gap ++ ("before".toList ++ ':' :: rest))).length ≤ place :=
    List.length_take_le ..
  generalize List.take place (base ++ gap ++ ("before".toList ++ ':' :: rest)) = a at hpass hlen
  generalize Cursor.move ⟨none, base ++ gap ++ ("before".toList ++ ':' :: rest)⟩ place = here
    at hpass hmem
  rcases List.append_eq_append_iff.mp hpass.1 with ⟨y, rfl, hafter⟩ | ⟨x, hx, hafter⟩
  · have hy := le_length_of_inside g hpass hafter hmem
    rw [List.length_append] at hlen
    omega
  · have hxe : Text.endsWord x = false := by
      by_cases hne : x = []
      · rw [hne]
        rfl
      · rwa [hx, Text.endsWord_append hne] at hfront
    obtain ⟨t, u, ht, htw, rfl⟩ := g.exists_eq_append_of_mem hmem hafter hxe
    obtain ⟨v, rfl, rfl⟩ := Text.exists_eq_of_append_gap hgap hx htw
    have hv : Text.startsWord v = false := by
      by_cases hne : v = []
      · rw [hne]
        rfl
      · obtain ⟨-, -, -, -, -, hsw⟩ := g.exists_of_mem hmem
        have hthere : there.after = v ++ (gap ++ ("before".toList ++ ':' :: rest)) :=
          List.append_cancel_left (ht.1.symm.trans (hafter.trans (by simp)))
        rwa [hthere, Text.startsWord_append hne] at hsw
    have hday := dayAt?_move hpass g hmem ht hv reference
    exact (recognize_eq_none_iff.mp hnone form hform a.length d (hday.trans hd)).elim

theorem isNumber_padZero {low width n : Nat} (hw : 0 < width) (hn : n < Nat.pow 10 width)
    (hl : low ≤ width) : IsNumber low width (Text.padZero width (Text.ofNat n)) := by
  have hlen := Text.length_padZero_ofNat hw hn
  refine ⟨by omega, fun c hc => CharClass.isDigit_of_ascii ?_⟩
  exact Text.isDigit_of_mem_padZero hc

/-- A year that needs no sign has four digits. -/
theorem isNumber_year {year : Int} (hy : 0 ≤ year ∧ year ≤ 9999) :
    IsNumber 4 4 (Text.padZero 4 (Text.ofNat year.natAbs)) := by
  have hlt : year.natAbs ≤ 9999 := by omega
  exact isNumber_padZero (by decide) (Nat.lt_of_le_of_lt hlt (by decide)) (by decide)

/-- A month in operator form is a year, a month and the first day in digits. -/
theorem spellsIsoDay_operatorDate {b : Date} (hy : 0 ≤ b.year ∧ b.year ≤ 9999) :
    SpellsIsoDay (Text.padZero 4 (Text.ofNat b.year.natAbs), twoDigits b.month, "01".toList)
      (operatorDate b) := by
  have hmonth : IsNumber 1 2 (twoDigits b.month) :=
    isNumber_padZero (by decide) (Nat.lt_of_le_of_lt b.isDay.2.1.2 (by decide)) (by decide)
  have hday : IsNumber 1 2 "01".toList := by decide
  have hdate : operatorDate b = Text.padZero 4 (Text.ofNat b.year.natAbs) ++ ['-'] ++
      (twoDigits b.month ++ ['-'] ++ "01".toList) := by
    rw [operatorDate, operatorYear, if_neg (by omega)]
    simp
  rw [hdate]
  exact .mk (isNumber_year hy) hmonth hday

/-- A month in operator form names its first day. -/
theorem isoDay_dayAt? {b : Date} (hd : b.day = 1) (hy : 0 ≤ b.year ∧ b.year ≤ 9999)
    (hbefore : (here.before.map CharClass.isWord).getD false = false)
    (hafter : here.after = operatorDate b ++ rest) (hrest : Text.startsWord rest = false) :
    isoDay.dayAt? reference here = some b := by
  have hmem := isoDayGrammar.mem_run_of_spells (spellsIsoDay_operatorDate hy) hbefore hafter hrest
  have hday : Date.ofYMD? b.year.natAbs b.month 1 = some b := by
    rw [Int.natAbs_of_nonneg hy.1, ← hd, Date.ofYMD?_self]
  have hread (width n : Nat) := Text.toNat?_padZero width n
  have hone : Text.toNat? "01".toList = some 1 := by decide
  rw [Form.dayAt?_eq_of_mem isoDayGrammar hmem]
  simp only [isoDay, dayOfDigits?, twoDigits, hread, hone, Option.bind_eq_bind, Option.bind_some]
  exact hday

/-- Where no word goes on, a month in operator form names its first day. -/
theorem names_operatorDate {b : Date} (hd : b.day = 1) (hy : 0 ≤ b.year ∧ b.year ≤ 9999)
    (hfront : Text.endsWord a = false) (hrest : Text.startsWord rest = false) :
    Names isoDay reference (a ++ (operatorDate b ++ rest)) a.length b := by
  rw [Names, Cursor.move_eq, List.take_left, List.drop_left]
  exact isoDay_dayAt? hd hy hfront rfl hrest

/-- A bound behind a text in which no day is named is the first day that is named. -/
theorem recognize_bound (hgap : ∀ c ∈ gap, CharClass.isWord c = false)
    (hfront : Text.endsWord (base ++ gap) = false) (hnone : recognize base reference = none)
    {b : Date} (hd : b.day = 1) (hy : 0 ≤ b.year ∧ b.year ≤ 9999)
    (hrest : Text.startsWord rest = false) :
    recognize (base ++ gap ++ ("before".toList ++ ':' :: (operatorDate b ++ rest))) reference =
      some b := by
  have hcolon : Text.endsWord "before:".toList = false := by decide
  have hend : Text.endsWord (base ++ gap ++ "before:".toList) = false :=
    (Text.endsWord_append (by decide) _).trans hcolon
  have hnames : Names isoDay reference _ _ b := names_operatorDate hd hy hend hrest
  have hcut : base ++ gap ++ "before:".toList ++ (operatorDate b ++ rest) =
      base ++ gap ++ ("before".toList ++ ':' :: (operatorDate b ++ rest)) := by simp
  have hlen : (base ++ gap ++ "before:".toList).length = (base ++ gap).length + 7 :=
    List.length_append
  rw [hcut, hlen] at hnames
  exact recognize_eq_of_names (n := 0) rfl hnames
    (fun form hform place d => le_place_of_names hgap hfront hnone hform)
    fun m hm => absurd hm m.not_lt_zero

end Recognizer

end JobSearch
