import JobSearch.Config.Store
import JobSearch.Proofs.Results
import JobSearch.Proofs.Url.Idna

/-!
# Runs of loads

The first load puts the store in order and the later ones find it so: a file that can be loaded has
from then on the text that saving its configuration gives, and a store that cannot be loaded stays
as it is. Every load of a run thus has the result of the first.
-/

namespace JobSearch

variable {idna : Url.Idna}

namespace Config

/-- The settings are within their bounds: a sweep of one month up to the greatest number of months,
and an endpoint that is a URL under the rules for names. -/
structure IsValid (idna : Url.Idna) (c : Config) : Prop where
  count_pos : 1 ≤ c.variationCount
  count_le : c.variationCount ≤ maxVariationCount
  exists_url : ∃ u, Url.parse idna c.searchUrl = .ok u

theorem check_eq_ok_iff {c : Config} : c.check idna = .ok () ↔ c.IsValid idna := by
  rw [check]
  split
  · exact ⟨nofun, fun h => absurd h.count_pos (by omega)⟩
  · split
    · exact ⟨nofun, fun h => absurd h.count_le (by omega)⟩
    · cases hu : Url.parse idna c.searchUrl with
      | error e =>
        refine ⟨nofun, fun h => ?_⟩
        obtain ⟨u, hok⟩ := h.exists_url
        rw [hu] at hok
        cases hok
      | ok u => exact ⟨fun _ => ⟨by omega, by omega, u, hu⟩, fun _ => rfl⟩

/-- What is read is a configuration of the text that passes the check. -/
theorem read_eq_ok_iff {t : Text} {c : Config} :
    read idna t = .ok c ↔ ofText? t = some c ∧ c.IsValid idna := by
  rw [read]
  cases ofText? t with
  | none => simp
  | some d =>
    dsimp only
    rw [map_eq_ok_iff, Option.some.injEq, ← check_eq_ok_iff]
    constructor
    · rintro ⟨u, h, rfl⟩
      exact ⟨rfl, h⟩
    · rintro ⟨rfl, h⟩
      exact ⟨(), h, rfl⟩

/-- The endpoint of the standard configuration has a plain name. -/
theorem isValid_standard (idna : Url.Idna) : standard.IsValid idna where
  count_pos := by decide
  count_le := by decide
  exists_url := by
    have h : Url.parse .plain defaultSearchUrl = .ok
        ⟨"https".toList, some ⟨[], [], .name "www.google.com".toList, none⟩,
          .segments ["search".toList], none, none⟩ := by decide +kernel
    exact ⟨_, Url.parse_of_plain h idna⟩

/-- The standard configuration is read back from the text in which it is saved. -/
theorem read_text_standard (idna : Url.Idna) : read idna standard.text = .ok standard :=
  read_eq_ok_iff.mpr ⟨by decide +kernel, isValid_standard idna⟩

end Config

namespace Store

/-- There is no file yet, and nothing stands where it should be. -/
def IsAbsent (s : Store) : Prop := s = noFolder ∨ s = noFile

/-- The store in which a configuration is saved. -/
def saved (c : Config) : Store := file c.text.utf8

/-- A text that is read stands in a file, and the file has its bytes. -/
theorem eq_file_of_read {s : Store} {t : Text} (h : s.read = .ok t) : s = file t.utf8 := by
  cases s with
  | file bytes =>
    rw [read, textOfBytes] at h
    cases ht : Text.ofUtf8? bytes with
    | none => simp [ht] at h
    | some u =>
      simp only [ht, Except.ok.injEq] at h
      rw [← h, Text.utf8_of_ofUtf8? ht]
  | noFolder | blocked | noFile | folder => cases h

@[simp] theorem read_file (t : Text) : (file t.utf8).read = .ok t := by
  rw [read, textOfBytes, Text.ofUtf8?_utf8]

/-- What loading does where there is a file: it fails and leaves the store as it is, or it reads a
valid configuration and leaves it saved. -/
theorem loadPresent_cases (idna : Url.Idna) (s : Store) :
    (∃ e, s.loadPresent idna = (.error e, s)) ∨
      ∃ t c, s = file t.utf8 ∧ Config.read idna t = .ok c ∧
        s.loadPresent idna = (.ok c, saved c) := by
  rw [loadPresent]
  cases hs : s.read with
  | error e => exact .inl ⟨e, rfl⟩
  | ok t =>
    obtain rfl := eq_file_of_read hs
    dsimp only
    cases hc : Config.read idna t with
    | error e => exact .inl ⟨e, rfl⟩
    | ok c =>
      refine .inr ⟨t, c, rfl, hc, ?_⟩
      by_cases ht : t = c.text
      · simp only [ht, if_true, saved]
      · simp only [ht, if_false, save, write, saved]

/-- A saved configuration that is read back from its text is loaded, and nothing is written. -/
theorem load_saved {c : Config} (h : Config.read idna c.text = .ok c) :
    (saved c).load idna = (.ok c, saved c) := by
  have hp : (saved c).prepare = .ok (saved c) := rfl
  rw [load, hp]
  simp only [loadPresent, saved, read_file, h, if_true]

/-- Where there is no file, the standard configuration is saved and loaded. -/
theorem load_of_isAbsent {s : Store} (h : s.IsAbsent) :
    s.load idna = (.ok .standard, saved .standard) := by
  have hp : s.prepare = .ok (saved .standard) := by
    obtain rfl | rfl := h <;> rfl
  have hl := load_saved (Config.read_text_standard idna)
  rw [load] at hl ⊢
  rw [hp]
  exact hl

/-- What loading does: it fails and leaves the store as it is, or it has a valid configuration and
leaves it saved. -/
theorem load_cases (idna : Url.Idna) (s : Store) :
    (∃ e, s.load idna = (.error e, s)) ∨
      ∃ c, c.IsValid idna ∧ s.load idna = (.ok c, saved c) := by
  cases s with
  | noFolder => exact .inr ⟨_, Config.isValid_standard idna, load_of_isAbsent (.inl rfl)⟩
  | noFile => exact .inr ⟨_, Config.isValid_standard idna, load_of_isAbsent (.inr rfl)⟩
  | blocked => exact .inl ⟨_, rfl⟩
  | folder => exact .inl ⟨_, rfl⟩
  | file bytes =>
    obtain ⟨e, h⟩ | ⟨t, c, -, hc, h⟩ := loadPresent_cases idna (file bytes)
    · exact .inl ⟨e, h⟩
    · exact .inr ⟨c, (Config.read_eq_ok_iff.mp hc).2, h⟩

end Store

end JobSearch
