import JobSearch.Proofs.Calendar.Recognizer
import JobSearch.Proofs.Text.Words

/-!
# Days that are named without a clock

Four of the five forms say by themselves which day they name; only phrases such as `3 months ago`
count from the reference day. So where one of the four names a day in front of all such phrases, the
recognizer returns the same day from every reference day. White space around a text changes nothing
that is recognized in it.
-/

namespace JobSearch

open Phrase

namespace Phrase.Form

/-- The form matches at a place of the text, counted in characters. -/
def MatchesAt (form : Form) (t : Text) (place : Nat) : Prop :=
  ∃ p there, (p, there) ∈ form.pattern.run (Cursor.move ⟨none, t⟩ place)

/-- A match starts in the text. -/
theorem le_length_of_matchesAt {form : Form} (g : form.Grammar) {t : Text} {place : Nat}
    (h : form.MatchesAt t place) : place ≤ t.length := by
  obtain ⟨p, there, hp⟩ := h
  rw [Cursor.move_eq] at hp
  refine Nat.le_of_not_lt fun hlt => ?_
  have hstart := g.startsWord_of_mem hp
  rw [List.drop_of_length_le (Nat.le_of_lt hlt)] at hstart
  cases hstart

section Gaps

variable {form : Form} {front u back : Text}

/-- A form reads the same whether gaps stand around the text or not. -/
theorem exists_mem_run_between_iff (g : form.Grammar)
    (hfront : ∀ c ∈ front, CharClass.isWord c = false)
    (hback : ∀ c ∈ back, CharClass.isWord c = false) {a v : Text} {p : form.Pieces} :
    (∃ there, (p, there) ∈ form.pattern.run ⟨(front ++ a).getLast?, v ++ back⟩) ↔
      ∃ there, (p, there) ∈ form.pattern.run ⟨a.getLast?, v⟩ := by
  have hbefore : Text.endsWord (front ++ a) = Text.endsWord a := by
    by_cases ha : a = []
    · rw [ha, List.append_nil, Text.endsWord_eq_false hfront]
      rfl
    · exact Text.endsWord_append ha front
  constructor
  · rintro ⟨there, h⟩
    obtain ⟨t, w, ws, ht, hw, hsw⟩ := g.exists_of_mem h
    obtain ⟨r, hv, hr⟩ :=
      Text.exists_eq_of_append_gap (a := []) hback ht.1 hw.spaced.endsWord
    rw [hr, Text.startsWord_append_gap hback] at hsw
    exact ⟨_, g.mem_run_of_passes h ht (hbefore.symm.trans (g.before_of_mem h)) hv hsw⟩
  · rintro ⟨there, h⟩
    obtain ⟨t, w, ws, ht, hw, hsw⟩ := g.exists_of_mem h
    have hafter : v ++ back = t ++ (there.after ++ back) := by
      rw [← List.append_assoc]
      exact congrArg (· ++ back) ht.1
    rw [← Text.startsWord_append_gap hback] at hsw
    exact ⟨_, g.mem_run_of_passes h ht (hbefore.trans (g.before_of_mem h)) hafter hsw⟩

/-- In a text between gaps, a form names a day where it names it in the text alone. -/
theorem dayAt?_between (g : form.Grammar)
    (hfront : ∀ c ∈ front, CharClass.isWord c = false)
    (hback : ∀ c ∈ back, CharClass.isWord c = false) {n : Nat} (hn : n ≤ u.length)
    (reference : Date) :
    form.dayAt? reference (Cursor.move ⟨none, front ++ (u ++ back)⟩ (front.length + n)) =
      form.dayAt? reference (Cursor.move ⟨none, u⟩ n) := by
  rw [Cursor.move_eq, Cursor.move_eq, List.take_length_add_append, List.drop_length_add_append,
    List.take_append_of_le_length hn, List.drop_append_of_le_length hn]
  refine Option.ext fun d => ⟨fun h => ?_, fun h => ?_⟩
  · obtain ⟨p, there, hp, hd⟩ := exists_mem_of_dayAt? h
    obtain ⟨there', hp'⟩ := (exists_mem_run_between_iff g hfront hback).mp ⟨there, hp⟩
    exact (dayAt?_eq_of_mem g hp' reference).trans hd
  · obtain ⟨p, there, hp, hd⟩ := exists_mem_of_dayAt? h
    obtain ⟨there', hp'⟩ := (exists_mem_run_between_iff g hfront hback).mpr ⟨there, hp⟩
    exact (dayAt?_eq_of_mem g hp' reference).trans hd

/-- In a text between gaps, no match starts in a gap. -/
theorem exists_of_matchesAt_between (g : form.Grammar)
    (hfront : ∀ c ∈ front, CharClass.isWord c = false)
    (hback : ∀ c ∈ back, CharClass.isWord c = false) {place : Nat}
    (h : form.MatchesAt (front ++ (u ++ back)) place) :
    ∃ n ≤ u.length, place = front.length + n := by
  obtain ⟨p, there, hp⟩ := h
  rw [Cursor.move_eq] at hp
  have hstart : Text.startsWord ((front ++ (u ++ back)).drop place) = true := g.startsWord_of_mem hp
  have hgap {s : Text} (hs : ∀ c ∈ s, CharClass.isWord c = false) : Text.startsWord s = false :=
    Text.startsWord_append_gap hs []
  rcases Nat.lt_or_ge place front.length with hlt | hge
  · have hne : front.drop place ≠ [] := by simp [hlt]
    rw [List.drop_append_of_le_length (Nat.le_of_lt hlt), Text.startsWord_append hne,
      hgap fun c hc => hfront c (List.mem_of_mem_drop hc)] at hstart
    cases hstart
  · obtain ⟨n, rfl⟩ := Nat.exists_eq_add_of_le hge
    refine ⟨n, Nat.le_of_not_lt fun hlt => ?_, rfl⟩
    rw [List.drop_length_add_append, List.drop_append, List.drop_of_length_le (Nat.le_of_lt hlt),
      List.nil_append, hgap fun c hc => hback c (List.mem_of_mem_drop hc)] at hstart
    cases hstart

end Gaps

end Phrase.Form

namespace Recognizer

theorem matchesAt_of_names {form : Form} {reference d : Date} {t : Text} {place : Nat}
    (h : Names form reference t place d) : form.MatchesAt t place := by
  obtain ⟨p, there, hp, -⟩ := Form.exists_mem_of_dayAt? h
  exact ⟨p, there, hp⟩

/-- What a form names in a text between gaps, it names in the text alone. -/
theorem names_between_iff {form : Form} (hform : form ∈ forms) {front u back : Text}
    (hfront : ∀ c ∈ front, CharClass.isWord c = false)
    (hback : ∀ c ∈ back, CharClass.isWord c = false) {reference d : Date} {place : Nat} :
    Names form reference (front ++ (u ++ back)) place d ↔
      ∃ n ≤ u.length, place = front.length + n ∧ Names form reference u n d := by
  obtain ⟨g⟩ := exists_grammar hform
  constructor
  · intro h
    obtain ⟨n, hn, rfl⟩ :=
      Form.exists_of_matchesAt_between g hfront hback (matchesAt_of_names h)
    exact ⟨n, hn, rfl, (Form.dayAt?_between g hfront hback hn reference).symm.trans h⟩
  · rintro ⟨n, hn, rfl, h⟩
    exact (Form.dayAt?_between g hfront hback hn reference).trans h

/-- Gaps around a text change nothing that is recognized in it. -/
theorem recognize_between {front u back : Text}
    (hfront : ∀ c ∈ front, CharClass.isWord c = false)
    (hback : ∀ c ∈ back, CharClass.isWord c = false) (reference : Date) :
    recognize (front ++ (u ++ back)) reference = recognize u reference := by
  cases hr : recognize u reference with
  | none =>
    refine recognize_eq_none_iff.mpr fun form hform place d h => ?_
    obtain ⟨n, -, -, hd⟩ := (names_between_iff hform hfront hback).mp h
    exact recognize_eq_none_iff.mp hr form hform n d hd
  | some d =>
    obtain ⟨place, n, form, hn, hd, hmin⟩ := exists_of_recognize hr
    have hform : form ∈ forms := List.mem_of_getElem? hn
    obtain ⟨g⟩ := exists_grammar hform
    have hplace : place ≤ u.length := Form.le_length_of_matchesAt g (matchesAt_of_names hd)
    refine recognize_eq_of_names hn
      ((names_between_iff hform hfront hback).mpr ⟨place, hplace, rfl, hd⟩)
      (fun form' hform' place' d' h => ?_) fun m hm form' d' hm' h => ?_
    · obtain ⟨k, -, rfl, hk⟩ := (names_between_iff hform' hfront hback).mp h
      obtain ⟨m, hm⟩ := List.mem_iff_getElem?.mp hform'
      have hfirst := hmin k m form' d' hm hk
      omega
    · obtain ⟨k, -, hk', hk⟩ :=
        (names_between_iff (List.mem_of_getElem? hm') hfront hback).mp h
      have hfirst := hmin k m form' d' hm' hk
      omega

/-- White space names no day. -/
theorem recognize_of_isAllBlank {t : Text} (h : t.isAllBlank = true) (reference : Date) :
    recognize t reference = none := by
  have hempty : ∀ c ∈ ([] : Text), CharClass.isWord c = false := by simp
  have hnil := recognize_between (u := []) (Text.not_isWord_of_isAllBlank h) hempty reference
  rwa [List.append_nil, List.append_nil] at hnil

/-- White space at the ends of a text changes nothing that is recognized in it. -/
theorem recognize_trim (t : Text) (reference : Date) :
    recognize t.trim reference = recognize t reference := by
  obtain ⟨front, back, hfront, hback, ht⟩ := t.exists_eq_append_trim
  have h := recognize_between (u := t.trim) (Text.not_isWord_of_isAllBlank hfront)
    (Text.not_isWord_of_isAllBlank hback) reference
  rw [← ht] at h
  exact h.symm

/-- The forms that say by themselves which day they name. -/
def absoluteForms : List Form := [isoDay, yearMonth, monthDayYear, dayMonthYear]

theorem mem_forms_iff {form : Form} : form ∈ forms ↔ form ∈ absoluteForms ∨ form = relative := by
  have h : forms = absoluteForms ++ [relative] := rfl
  rw [h, List.mem_append, List.mem_singleton]

/-- A form without a clock names the same day from every reference day. -/
theorem Names.of_absolute {form : Form} (hform : form ∈ absoluteForms) {reference d : Date}
    {t : Text} {place : Nat} (h : Names form reference t place d) (reference' : Date) :
    Names form reference' t place d := by
  simp only [absoluteForms, List.mem_cons, List.not_mem_nil, or_false] at hform
  rcases hform with rfl | rfl | rfl | rfl <;> exact h

/-- A form without a clock names a day in front of all phrases that count from the reference day,
whether these name a day or not. -/
def AbsoluteFirst (t : Text) : Prop :=
  ∃ form ∈ absoluteForms, ∃ place reference d, Names form reference t place d ∧
    ∀ place', relative.MatchesAt t place' → place < place'

/-- Behind such a day nothing matters, so the recognizer returns one day from every reference day,
named by a form without a clock. -/
theorem AbsoluteFirst.exists_recognize {t : Text} (h : AbsoluteFirst t) :
    ∃ d, (∃ form ∈ absoluteForms, ∃ place, ∀ reference, Names form reference t place d) ∧
      ∀ reference, recognize t reference = some d := by
  obtain ⟨form₀, hform₀, place₀, reference₀, d₀, hd₀, hrel⟩ := h
  -- Up to the place of this day, only forms without a clock name one.
  have habs {form : Form} (hform : form ∈ forms) {reference d : Date} {place : Nat}
      (hd : Names form reference t place d) (hle : place ≤ place₀) : form ∈ absoluteForms := by
    refine (mem_forms_iff.mp hform).resolve_right ?_
    rintro rfl
    exact Nat.not_lt.mpr hle (hrel place (matchesAt_of_names hd))
  have hmem₀ : form₀ ∈ forms := mem_forms_iff.mpr (Or.inl hform₀)
  cases hr : recognize t reference₀ with
  | none => exact (recognize_eq_none_iff.mp hr form₀ hmem₀ place₀ d₀ hd₀).elim
  | some d =>
    obtain ⟨place, n, form, hn, hd, hmin⟩ := exists_of_recognize hr
    obtain ⟨n₀, hn₀⟩ := List.mem_iff_getElem?.mp hmem₀
    have hle : place ≤ place₀ := by
      have hfirst := hmin place₀ n₀ form₀ d₀ hn₀ hd₀
      omega
    have hform := habs (List.mem_of_getElem? hn) hd hle
    refine ⟨d, ⟨form, hform, place, hd.of_absolute hform⟩, fun reference => ?_⟩
    refine recognize_eq_of_names hn (hd.of_absolute hform reference)
      (fun form' hform' place' d' h => Nat.le_of_not_lt fun hlt => ?_)
      fun m hm form' d' hm' h => ?_
    · obtain ⟨m, hm⟩ := List.mem_iff_getElem?.mp hform'
      have hfirst := hmin place' m form' d' hm
        (h.of_absolute (habs hform' h (by omega)) _)
      omega
    · have hfirst := hmin place m form' d' hm'
        (h.of_absolute (habs (List.mem_of_getElem? hm') h hle) _)
      omega

end Recognizer

end JobSearch
