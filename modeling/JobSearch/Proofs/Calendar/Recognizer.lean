import JobSearch.Calendar.Recognizer
import JobSearch.Proofs.Calendar.Grammar

/-!
# The first day named in a text

A search that goes on behind each match without a day misses nothing, since no match starts inside
another of its form. So each search finds the first place at which its form names a day, and the
recognizer finds the first such place of all.
-/

namespace JobSearch

namespace Phrase.Form

/-- The day that a form names at a place: the one of its preferred match. -/
def dayAt? (form : Form) (reference : Date) (here : Cursor) : Option Date :=
  (form.pattern.run here).head?.bind fun m => form.day? reference m.1

/-- All matches at a place name the same day. -/
theorem dayAt?_eq_of_mem {form : Form} (g : form.Grammar) {here there : Cursor} {p : form.Pieces}
    (h : (p, there) ∈ form.pattern.run here) (reference : Date) :
    form.dayAt? reference here = form.day? reference p := by
  rw [dayAt?]
  cases hm : (form.pattern.run here).head? with
  | none =>
    rw [List.head?_eq_none_iff.mp hm] at h
    cases h
  | some m =>
    have hp : m.1 = p := (g.told_runs (List.mem_of_mem_head? hm)).symm.trans (g.told_runs h)
    rw [Option.bind_some, hp]

theorem exists_mem_of_dayAt? {form : Form} {reference d : Date} {here : Cursor}
    (h : form.dayAt? reference here = some d) :
    ∃ p there, (p, there) ∈ form.pattern.run here ∧ form.day? reference p = some d := by
  obtain ⟨m, hm, hd⟩ := Option.bind_eq_some_iff.mp h
  exact ⟨m.1, m.2, List.mem_of_mem_head? hm, hd⟩

theorem dayAt?_eq_none_of_run {form : Form} {here : Cursor} (h : form.pattern.run here = [])
    (reference : Date) : form.dayAt? reference here = none := by
  rw [dayAt?, h]
  rfl

end Phrase.Form

namespace Recognizer

open Phrase

/-- The form names the day some characters further on, and none before that. -/
def NamesFirst (form : Form) (reference : Date) (here : Cursor) (n : Nat) (d : Date) : Prop :=
  form.dayAt? reference (here.move n) = some d ∧
    ∀ k < n, form.dayAt? reference (here.move k) = none

variable {form : Form} {reference : Date}

/-- A place without a day is passed over. -/
theorem namesFirst_cons {b : Option Char} {c : Char} {r : Text}
    (h : form.dayAt? reference ⟨b, c :: r⟩ = none) {n : Nat} {d : Date} :
    NamesFirst form reference ⟨b, c :: r⟩ n d ↔
      ∃ k, n = k + 1 ∧ NamesFirst form reference ⟨some c, r⟩ k d := by
  constructor
  · rintro ⟨hd, hbefore⟩
    cases n with
    | zero =>
      rw [Cursor.move, h] at hd
      cases hd
    | succ k => exact ⟨k, rfl, hd, fun j hj => hbefore (j + 1) (by omega)⟩
  · rintro ⟨k, rfl, hd, hbefore⟩
    refine ⟨hd, fun j hj => ?_⟩
    cases j with
    | zero => exact h
    | succ j => exact hbefore j (by omega)

/-- A search finds the first place with a day, if the places that it skips at once have none. -/
theorem search_eq_some_iff (g : form.Grammar) {skip place : Nat} {b : Option Char} {t : Text}
    (hskip : ∀ k < skip, form.dayAt? reference (Cursor.move ⟨b, t⟩ k) = none) {n : Nat} {d : Date} :
    search form reference skip place b t = some (n, d) ↔
      ∃ k, n = place + k ∧ NamesFirst form reference ⟨b, t⟩ k d := by
  induction t generalizing skip place b with
  | nil =>
    have hnone (k : Nat) : form.dayAt? reference (Cursor.move ⟨b, []⟩ k) = none := by
      have hk : Cursor.move ⟨b, []⟩ k = ⟨b, []⟩ := by cases k <;> rfl
      rw [hk]
      exact Form.dayAt?_eq_none_of_run (g.run_nil b) reference
    have hs : search form reference skip place b [] = none := by cases skip <;> rfl
    simp [hs, NamesFirst, hnone]
  | cons c r ih =>
    -- Behind a place without a day the search goes on, whatever it skips.
    have hstep {skip' : Nat} (hhere : form.dayAt? reference ⟨b, c :: r⟩ = none)
        (hskip' : ∀ k < skip', form.dayAt? reference (Cursor.move ⟨some c, r⟩ k) = none) :
        search form reference skip' (place + 1) (some c) r = some (n, d) ↔
          ∃ k, n = place + k ∧ NamesFirst form reference ⟨b, c :: r⟩ k d := by
      rw [ih hskip']
      simp only [namesFirst_cons hhere]
      constructor
      · rintro ⟨k, rfl, hk⟩
        exact ⟨k + 1, by omega, k, rfl, hk⟩
      · rintro ⟨_, rfl, k, rfl, hk⟩
        exact ⟨k, by omega, hk⟩
    cases skip with
    | succ skip =>
      exact hstep (hskip 0 (by omega)) fun k hk => hskip (k + 1) (by omega)
    | zero =>
      rw [search]
      cases hm : (form.pattern.run ⟨b, c :: r⟩).head? with
      | none =>
        refine hstep ?_ fun k hk => by omega
        rw [Form.dayAt?, hm]
        rfl
      | some m =>
        obtain ⟨p, stop⟩ := m
        have hmem : (p, stop) ∈ form.pattern.run ⟨b, c :: r⟩ := List.mem_of_mem_head? hm
        have hhere := Form.dayAt?_eq_of_mem g hmem reference
        cases hd : form.day? reference p with
        | none =>
          simp only [hd]
          refine hstep (hhere.trans hd) fun k hk => ?_
          have hlt : k + 1 < (c :: r).length - stop.after.length := by
            rw [List.length_cons]
            omega
          exact Form.dayAt?_eq_none_of_run (g.run_move_eq_nil hmem k.succ_pos hlt) reference
        | some e =>
          simp only [hd]
          rw [hd] at hhere
          constructor
          · intro h
            obtain ⟨rfl, rfl⟩ := Prod.mk.inj (Option.some.inj h)
            exact ⟨0, rfl, hhere, fun k hk => by omega⟩
          · rintro ⟨k, rfl, hk, hbefore⟩
            cases k with
            | zero => rw [Option.some.inj (hhere.symm.trans hk), Nat.add_zero]
            | succ k => cases hhere.symm.trans (hbefore 0 k.succ_pos)

/-- The form names the day at a place of the text, counted in characters. -/
def Names (form : Form) (reference : Date) (t : Text) (place : Nat) (d : Date) : Prop :=
  form.dayAt? reference (Cursor.move ⟨none, t⟩ place) = some d

theorem first?_eq_some_iff (g : form.Grammar) {t : Text} {n : Nat} {d : Date} :
    first? form reference t = some (n, d) ↔
      Names form reference t n d ∧ ∀ k < n, ∀ e, ¬ Names form reference t k e := by
  rw [first?, search_eq_some_iff g fun k hk => by omega]
  simp only [Nat.zero_add, exists_eq_left', NamesFirst, Option.eq_none_iff_forall_ne_some, Names]

/-- A search finds nothing only if the form names no day anywhere. -/
theorem first?_eq_none_iff (g : form.Grammar) {t : Text} :
    first? form reference t = none ↔ ∀ n d, ¬ Names form reference t n d := by
  constructor
  · intro h n
    induction n using Nat.strongRecOn with
    | ind n ih =>
      intro d hd
      rw [(first?_eq_some_iff g).mpr ⟨hd, ih⟩] at h
      cases h
  · intro h
    rw [Option.eq_none_iff_forall_ne_some]
    rintro ⟨n, d⟩ hn
    exact h n d ((first?_eq_some_iff g).mp hn).1

/-- Where a form names a day, its search stops there or before. -/
theorem exists_first?_of_names (g : form.Grammar) {t : Text} {n : Nat} {d : Date}
    (h : Names form reference t n d) : ∃ k e, first? form reference t = some (k, e) ∧ k ≤ n := by
  cases hf : first? form reference t with
  | none => exact ((first?_eq_none_iff g).mp hf n d h).elim
  | some m =>
    refine ⟨m.1, m.2, rfl, Nat.le_of_not_lt fun hlt => ?_⟩
    exact ((first?_eq_some_iff g).mp hf).2 n hlt d h

theorem leastFirst_eq_none_iff {α : Type} {xs : List (Nat × α)} :
    leastFirst xs = none ↔ xs = [] := by
  cases xs with
  | nil => simp [leastFirst]
  | cons x xs =>
    rw [leastFirst]
    split
    · simp
    · split <;> simp

/-- All pairs before the chosen one are greater, and none behind it is smaller. -/
theorem exists_of_leastFirst {α : Type} {xs : List (Nat × α)} {x : Nat × α}
    (h : leastFirst xs = some x) :
    ∃ before after, xs = before ++ x :: after ∧ (∀ y ∈ before, x.1 < y.1) ∧
      ∀ y ∈ after, x.1 ≤ y.1 := by
  induction xs generalizing x with
  | nil => cases h
  | cons y xs ih =>
    rw [leastFirst] at h
    cases hl : leastFirst xs with
    | none =>
      rw [hl] at h
      obtain rfl := Option.some.inj h
      rw [leastFirst_eq_none_iff.mp hl]
      exact ⟨[], [], rfl, by simp, by simp⟩
    | some z =>
      obtain ⟨before, after, rfl, hb, ha⟩ := ih hl
      simp only [hl] at h
      split at h
      · next hle =>
        obtain rfl := Option.some.inj h
        refine ⟨[], _, rfl, by simp, fun w hw => ?_⟩
        rcases List.mem_append.mp hw with hw | hw
        · exact Nat.le_trans hle (Nat.le_of_lt (hb w hw))
        · rcases List.mem_cons.mp hw with rfl | hw
          · exact hle
          · exact Nat.le_trans hle (ha w hw)
      · next hlt =>
        obtain rfl := Option.some.inj h
        exact ⟨y :: before, after, rfl, List.forall_mem_cons.mpr ⟨by omega, hb⟩, ha⟩

/-- Nothing is recognized only if no form names a day anywhere. -/
theorem recognize_eq_none_iff {t : Text} {reference : Date} :
    recognize t reference = none ↔ ∀ form ∈ forms, ∀ n d, ¬ Names form reference t n d := by
  rw [recognize, Option.map_eq_none_iff, leastFirst_eq_none_iff, List.filterMap_eq_nil_iff]
  refine forall₂_congr fun form hform => ?_
  obtain ⟨g⟩ := exists_grammar hform
  exact first?_eq_none_iff g

/-- What is recognized is named at a place such that no form names a day before it, and no earlier
form names one there. -/
theorem exists_of_recognize {t : Text} {reference d : Date} (h : recognize t reference = some d) :
    ∃ (place n : Nat) (form : Form), forms[n]? = some form ∧ Names form reference t place d ∧
      ∀ (place' n' : Nat) (form' : Form) (d' : Date), forms[n']? = some form' →
        Names form' reference t place' d' → place < place' ∨ place = place' ∧ n ≤ n' := by
  obtain ⟨⟨place, d⟩, hl, rfl⟩ := Option.map_eq_some_iff.mp h
  obtain ⟨before, after, he, hb, ha⟩ := exists_of_leastFirst hl
  obtain ⟨front, back, hforms, rfl, hback⟩ := List.filterMap_eq_append_iff.mp he
  obtain ⟨idle, form, rest, rfl, hidle, hform, rfl⟩ := List.filterMap_eq_cons_iff.mp hback
  have hmem : form ∈ forms := by simp [hforms]
  obtain ⟨g⟩ := exists_grammar hmem
  refine ⟨place, (front ++ idle).length, form, ?_, ((first?_eq_some_iff g).mp hform).1, ?_⟩
  · rw [hforms, ← List.append_assoc, List.getElem?_append_right (Nat.le_refl _), Nat.sub_self]
    rfl
  · intro place' n' form' d' hn' hd'
    obtain ⟨g'⟩ := exists_grammar (List.mem_of_getElem? hn')
    obtain ⟨k, e, hk, hle⟩ := exists_first?_of_names g' hd'
    rw [hforms, ← List.append_assoc] at hn'
    by_cases hlt : n' < (front ++ idle).length
    · rw [List.getElem?_append_left hlt] at hn'
      rcases List.mem_append.mp (List.mem_of_getElem? hn') with hin | hin
      · have := hb (k, e) (List.mem_filterMap.mpr ⟨form', hin, hk⟩)
        exact Or.inl (by omega)
      · cases (hidle form' hin).symm.trans hk
    · have hplace : place ≤ k := by
        rw [List.getElem?_append_right (by omega)] at hn'
        rcases List.mem_cons.mp (List.mem_of_getElem? hn') with rfl | hin
        · have heq := Option.some.inj (hform.symm.trans hk)
          exact Nat.le_of_eq (congrArg Prod.fst heq)
        · exact ha (k, e) (List.mem_filterMap.mpr ⟨form', hin, hk⟩)
      omega

/-- A day is recognized if it is named in front of all others, and no earlier form names one at its
place. -/
theorem recognize_eq_of_names {t : Text} {reference d : Date} {place n : Nat} {form : Form}
    (hn : forms[n]? = some form) (hd : Names form reference t place d)
    (hplace : ∀ form' ∈ forms, ∀ place' d', Names form' reference t place' d' → place ≤ place')
    (hform : ∀ m < n, ∀ form' d', forms[m]? = some form' → ¬ Names form' reference t place d') :
    recognize t reference = some d := by
  cases hr : recognize t reference with
  | none => exact (recognize_eq_none_iff.mp hr form (List.mem_of_getElem? hn) place d hd).elim
  | some e =>
    obtain ⟨place', n', form', hn', he, hmin⟩ := exists_of_recognize hr
    have hle := hplace form' (List.mem_of_getElem? hn') place' e he
    have hfirst := hmin place n form d hn hd
    obtain rfl : place = place' := by omega
    have hnot : ¬ n' < n := fun hlt => hform n' hlt form' e hn' he
    obtain rfl : n = n' := by omega
    obtain rfl : form = form' := Option.some.inj (hn.symm.trans hn')
    exact he.symm.trans hd

/-- The recognizer returns a day exactly if some form names one somewhere, and the day is the one
named at the first place of all, by the first form that names one there. -/
theorem recognize_leftmost (t : Text) (reference : Date) :
    ((∃ d, recognize t reference = some d) ↔
      ∃ place, ∃ form ∈ forms, ∃ d, Names form reference t place d) ∧
    ∀ d, recognize t reference = some d ↔
      ∃ (place n : Nat) (form : Form), forms[n]? = some form ∧ Names form reference t place d ∧
        ∀ (place' n' : Nat) (form' : Form) (d' : Date), forms[n']? = some form' →
          Names form' reference t place' d' → place < place' ∨ place = place' ∧ n ≤ n' := by
  have hsome : (∃ d, recognize t reference = some d) ↔
      ∃ place, ∃ form ∈ forms, ∃ d, Names form reference t place d := by
    rw [← Option.ne_none_iff_exists', Ne, recognize_eq_none_iff]
    simp only [Classical.not_forall, Classical.not_not]
    exact ⟨fun ⟨form, hform, n, d, h⟩ => ⟨n, form, hform, d, h⟩,
      fun ⟨n, form, hform, d, h⟩ => ⟨form, hform, n, d, h⟩⟩
  refine ⟨hsome, fun d => ⟨exists_of_recognize, ?_⟩⟩
  rintro ⟨place, n, form, hn, hd, hmin⟩
  obtain ⟨e, he⟩ := hsome.mpr ⟨place, form, List.mem_of_getElem? hn, d, hd⟩
  obtain ⟨place', n', form', hn', he', hmin'⟩ := exists_of_recognize he
  -- Two places that are both the first are equal, and so are the forms there.
  have h := hmin place' n' form' e hn' he'
  have h' := hmin' place n form d hn hd
  obtain rfl : place = place' := by omega
  obtain rfl : n = n' := by omega
  obtain rfl : form = form' := Option.some.inj (hn.symm.trans hn')
  rw [he, Option.some.inj (he'.symm.trans hd)]

-- A day that does not exist hides nothing: the year and the month at its place name a day.
example : recognize "on 2023-02-31".toList ⟨2024, 7, 20, by decide⟩ =
    some ⟨2023, 2, 1, by decide⟩ := by decide +kernel

end Recognizer

end JobSearch
