import JobSearch.Proofs.Calendar.Month
import JobSearch.Proofs.Query.Reading

/-!
# Writing a query

A query that is written has the words of the tokens of its parts, in order, and behind them those of
the group of default sites unless a token mentions one. A site is mentioned in a text exactly when
it is mentioned in one of its words, so joining tokens neither hides nor makes a mention.
-/

namespace JobSearch

theorem isWord_of_mem_hrSites {s : Text} (h : s ∈ hrSites) : Text.IsWord s := by
  have hall : ∀ s ∈ hrSites, Text.IsWord s := by decide
  exact hall s h

theorem mentionsHrSite_iff {t : Text} : mentionsHrSite t = true ↔ ∃ s ∈ hrSites, s <:+: t := by
  rw [mentionsHrSite, List.any_eq_true]
  exact exists_congr fun s => and_congr_right fun _ => Text.contains_iff

/-- A text mentions a default site exactly when one of its words does. -/
theorem mentionsHrSite_iff_exists_word {t : Text} :
    mentionsHrSite t = true ↔ ∃ w ∈ t.words, mentionsHrSite w = true := by
  constructor
  · intro h
    obtain ⟨s, hs, hi⟩ := mentionsHrSite_iff.mp h
    obtain ⟨w, hw, hi⟩ := Text.exists_mem_words_of_isInfix (isWord_of_mem_hrSites hs) hi
    exact ⟨w, hw, mentionsHrSite_iff.mpr ⟨s, hs, hi⟩⟩
  · rintro ⟨w, hw, h⟩
    obtain ⟨s, hs, hi⟩ := mentionsHrSite_iff.mp h
    exact mentionsHrSite_iff.mpr ⟨s, hs, hi.trans (Text.isInfix_of_mem_words hw)⟩

/-- Digits, dots and plus signs mention no site. -/
theorem not_mentionsHrSite_of_forall {t : Text}
    (h : ∀ c ∈ t, c = '.' ∨ c = '+' ∨ c.isDigit = true) : mentionsHrSite t = false := by
  rw [← Bool.not_eq_true, mentionsHrSite_iff]
  rintro ⟨s, hs, hi⟩
  have hall : ∀ s ∈ hrSites, s.any (fun c => !(c == '.' || c == '+' || c.isDigit)) = true := by
    decide
  obtain ⟨c, hc, hn⟩ := List.any_eq_true.mp (hall s hs)
  rcases h c (hi.subset hc) with he | he | he
  all_goals simp [he] at hn

namespace Part

/-- The token of a part; nothing if the part is refused. -/
def written (cal : Calendar) (p : Part) : Text :=
  match p.token cal with
  | .ok t => t
  | .error _ => []

theorem written_of_token {cal : Calendar} {p : Part} {t : Text} (h : p.token cal = .ok t) :
    p.written cal = t := by
  rw [written, h]

end Part

namespace Query

/-- Writing succeeds exactly when every part has a token, and joins the tokens and perhaps the group
of default sites with spaces. -/
theorem build_eq_ok_iff {cal : Calendar} {ps : List Part} {s : Text} :
    build cal ps = .ok s ↔ (∀ p ∈ ps, p.token cal = .ok (p.written cal)) ∧
      s = Text.unwords ((ps.map (Part.written cal) ++
        if ps.any (fun p => mentionsHrSite (p.written cal)) then [] else [defaultSiteGroup]).map
          Text.trim) := by
  have hm (h : ∀ p ∈ ps, p.token cal = .ok (p.written cal)) :
      ps.mapM (Part.token cal) = .ok (ps.map (Part.written cal)) :=
    mapM_eq_ok_iff.mpr (by rw [List.map_map]; exact List.map_congr_left h)
  have hb (h : ∀ p ∈ ps, p.token cal = .ok (p.written cal)) :
      build cal ps = .ok (Text.unwords ((ps.map (Part.written cal) ++
        if ps.any (fun p => mentionsHrSite (p.written cal)) then [] else [defaultSiteGroup]).map
          Text.trim)) := by
    rw [build, hm h]
    simp only [List.any_map, Function.comp_def]
    split <;> simp only [List.append_nil]
  constructor
  · intro h
    have ht : ∀ p ∈ ps, p.token cal = .ok (p.written cal) := by
      rw [build] at h
      split at h
      · cases h
      · next ts hts =>
        intro p hp
        obtain ⟨t, ht⟩ := exists_mapM_eq_ok_iff.mp ⟨ts, hts⟩ p hp
        rw [ht, Part.written_of_token ht]
    exact ⟨ht, Except.ok.inj (h.symm.trans (hb ht))⟩
  · rintro ⟨ht, rfl⟩
    exact hb ht

/-- The words of a written query are those of its tokens and, if no token mentions a default site,
those of the group of all of them. -/
theorem words_of_build {cal : Calendar} {ps : List Part} {s : Text} (h : build cal ps = .ok s) :
    s.words = ps.flatMap (fun p => (p.written cal).words) ++
      if ps.any (fun p => mentionsHrSite (p.written cal)) then [] else defaultSiteGroup.words := by
  rw [(build_eq_ok_iff.mp h).2, Text.words_unwords, List.flatMap_map, List.flatMap_append,
    List.flatMap_map]
  simp only [Text.words_trim]
  split <;> simp only [List.flatMap_nil, List.flatMap_singleton]

/-- The group of default sites is read as these sites, in order. -/
theorem reads_defaultSiteGroup : Reads defaultSiteGroup.words (hrSites.map .site) := by
  rfl

end Query

end JobSearch
