import JobSearch.Command.Outcome
import JobSearch.Proofs.Calendar.Reach
import JobSearch.Proofs.Config.Store
import JobSearch.Proofs.Query.Link
import JobSearch.Proofs.Query.Sweep

/-!
# Operations that a valid configuration cannot break

The check of a configuration and the reading of arguments allow no sweep that is too long and no
endpoint that is not a URL. What is left is the beginning of the calendar, which no sweep reaches
from a reference date that lies behind it by as many months as a text can lead back and a sweep can
go down.
-/

namespace JobSearch

namespace Command

theorem months?_eq_some_iff {t : Text} {n : Nat} :
    Flag.months? t = some n ↔
      (1 ≤ n ∧ n ≤ maxVariationCount) ∧ ∃ w, Text.toWord? t = some w ∧ w.toNat = n := by
  unfold Flag.months?
  rw [Option.bind_eq_some_iff]
  constructor
  · rintro ⟨w, hw, h⟩
    split at h
    · next hn =>
      obtain rfl := Option.some.inj h
      exact ⟨hn, w, hw, rfl⟩
    · cases h
  · rintro ⟨hn, w, hw, rfl⟩
    exact ⟨w, hw, if_pos hn⟩

/-- The arguments ask for no sweep that is empty or too long. -/
theorem count_of_ofArguments {args : List Text} {q : Text} {count : Option Nat}
    (h : ofArguments args = .ok (.variations q count)) :
    ∀ n ∈ count, 1 ≤ n ∧ n ≤ maxVariationCount := by
  intro n hn
  unfold ofArguments at h
  split at h
  · cases h
  · split at h
    · next v _ =>
      split at h
      · cases h
      · next a _ =>
        unfold ofParts at h
        split at h
        · -- Arguments that build a query make no other command.
          unfold ofBuildArguments at h
          split at h
          · split at h <;> cases h
          · cases h
        · cases h
        · cases h
        · obtain ⟨-, rfl⟩ := Command.variations.inj (Except.ok.inj h)
          obtain ⟨t, -, ht⟩ := Option.bind_eq_some_iff.mp hn
          exact (months?_eq_some_iff.mp ht).1
        · cases h
        · cases h
        · cases h
    · split at h
      · cases h
      · split at h <;> cases h

end Command

namespace Engine

/-- A sweep that is not too long never reaches the beginning of the calendar from a reference date
that lies far enough behind it. -/
theorem exists_variations_eq_ok_of_far {c : Config} {d : Date} (hd : c.referenceDate = some d)
    (hfar : Date.firstIndex + 11199 ≤ d.monthIndex) {count : Nat} (hc : count ≤ maxVariationCount)
    (clock : Date) (q : Text) :
    ∃ vs, { ofConfig clock c with variationCount := count }.variations q = .ok vs ∧
      vs.length = count := by
  have he : { ofConfig clock c with variationCount := count }.variations q =
      Query.variations (.pinned d) q count := by
    simp only [variations, ofConfig, hd, Option.getD_some]
  have hmax : maxVariationCount = 1200 := rfl
  have hfirst : Date.firstIndex + 1200 ≤ 0 := by decide
  have hreach := Calendar.isWithinReach_resolve d (some q)
  have hroom : count ≤ ((Calendar.pinned d).resolve (some q)).monthIndex - Date.firstIndex := by
    rcases hreach with h | h
    · omega
    · omega
  obtain ⟨bounds, -, hv⟩ := Query.exists_variations_eq_ok hc hroom
  rw [he]
  exact ⟨_, hv, by rw [List.length_map, List.length_range]⟩

/-- With a configuration that was loaded, under whatever rules for names, and a reference date at
least 11199 months behind the beginning of the calendar, there is a link for every query, and a
sweep of every query, recognized or not, over exactly the configured number of months or the number
asked for instead. So every call of the program that links or sweeps succeeds. -/
theorem total_of_load {idna : Url.Idna} {s : Store} {c : Config} {d : Date}
    (hload : (s.load idna).1 = .ok c) (hd : c.referenceDate = some d)
    (hfar : Date.firstIndex + 11199 ≤ d.monthIndex) :
    (∀ (clock : Date) (q : Text), ∃ u, (ofConfig clock c).link idna q = .ok u) ∧
    (∀ (clock : Date) (q : Text) (count : Option Nat),
      (∀ n ∈ count, 1 ≤ n ∧ n ≤ 1200) → ∃ vs,
        { ofConfig clock c with variationCount := count.getD c.variationCount }.variations q =
          .ok vs ∧ vs.length = count.getD c.variationCount) ∧
    ∀ (w : Surroundings) (args : List Text) (q : Text) (count : Option Nat), w.idna = idna →
      Command.ofArguments args = .ok (.url q) ∨
        Command.ofArguments args = .ok (.variations q count) → (w.run args s).1.code = 0 := by
  obtain ⟨e, he⟩ | ⟨c', hvalid, hl⟩ := s.load_cases idna
  · rw [he] at hload
    cases hload
  obtain rfl : c' = c := by
    rw [hl] at hload
    exact Except.ok.inj hload
  have hlink (clock : Date) (q : Text) : ∃ u, (ofConfig clock c').link idna q = .ok u := by
    obtain ⟨u, hu⟩ := hvalid.exists_url
    exact ⟨_, Query.link_of_parse hu q⟩
  have hsweep (clock : Date) (q : Text) (count : Option Nat)
      (hcount : ∀ n ∈ count, 1 ≤ n ∧ n ≤ 1200) : ∃ vs,
      { ofConfig clock c' with variationCount := count.getD c'.variationCount }.variations q =
        .ok vs ∧ vs.length = count.getD c'.variationCount := by
    apply exists_variations_eq_ok_of_far hd hfar
    cases count with
    | none => exact hvalid.count_le
    | some n => exact (hcount n rfl).2
  refine ⟨hlink, hsweep, fun w args q count hw h => ?_⟩
  subst hw
  rcases h with h | h
  · obtain ⟨u, hu⟩ := hlink w.clock q
    simp only [Surroundings.run, h, hl, Command.run, Command.shown, hu]
    rfl
  · obtain ⟨vs, hv, -⟩ := hsweep w.clock q count (Command.count_of_ofArguments h)
    have hv' : { ofConfig w.clock c' with
        variationCount := count.getD (ofConfig w.clock c').variationCount }.variations q =
          .ok vs := hv
    simp only [Surroundings.run, h, hl, Command.run, Command.shown, hv']
    rfl

/-- The longest sweep from the furthest day that a text names, seen from the earliest reference date
that is far enough, ends in the first month of the calendar. The endpoint has a host beyond ASCII.
-/
theorem total_of_load_first_month :
    let idna : Url.Idna := .ofTable [("münchen.de".toList, "xn--mnchen-3ya.de".toList)]
    let d : Date := ⟨-261210, 4, 1, by decide⟩
    let c : Config := ⟨12, "https://münchen.de/s".toList, some d⟩
    let file : Text := "search_url: https://münchen.de/s\nreference_date: -261210-04-01\n".toList
    let q : Text := "9999 months ago company:x".toList
    let args : List Text := ["variations".toList, q, "-c1200".toList]
    let w : Surroundings := ⟨"c".toList, d, idna, fun _ => ⟨.ok [], fun _ => .error .missing⟩⟩
    (((Store.file file.utf8).load idna).1 = .ok c ∧ c.referenceDate = some d ∧
      Date.firstIndex + 11199 ≤ d.monthIndex) ∧
    ((Calendar.pinned d).resolve (some q)).monthIndex - 1200 = Date.firstIndex ∧
    (∃ u, (ofConfig d c).link idna q = .ok u) ∧
    (∃ vs, { ofConfig d c with variationCount := 1200 }.variations q = .ok vs ∧
      vs.length = 1200) ∧
    Command.ofArguments args = .ok (.variations q (some 1200)) ∧
    (w.run args (.file file.utf8)).1.code = 0 := by
  intro idna d c file q args w
  have hload : ((Store.file file.utf8).load idna).1 = .ok c := by decide +kernel
  have hfar : Date.firstIndex + 11199 ≤ d.monthIndex := by decide
  have hargs : Command.ofArguments args = .ok (.variations q (some 1200)) := by decide +kernel
  obtain ⟨hlink, hsweep, hrun⟩ := total_of_load hload rfl hfar
  exact ⟨⟨hload, rfl, hfar⟩, by decide +kernel, hlink d q, hsweep d q (some 1200) (by simp), hargs,
    hrun w args q (some 1200) rfl (Or.inr hargs)⟩

end Engine

end JobSearch
