import JobSearch.Query.Fingerprint
import JobSearch.Proofs.Query.Content

/-!
# Rebuilding a query

A query is rebuilt by reading it and writing what was read. This respells words, puts them in order
and adds the default sites if none is mentioned; every query that is written mentions one, so a
rebuilt query is read as before and rebuilding it once more changes nothing.
-/

namespace JobSearch

namespace Part

/-- Nothing is missing from a part that is to be written: an operator has a value, and a range has a
lower bound and no excessive upper bound. -/
def Filled : Part → Prop
  | .site v => v ≠ []
  | .after v => v ≠ []
  | .before v => v ≠ []
  | .salary r => r.Writable
  | .text _ => True
  | .lastMonth _ => True

theorem filled_iff_of_operatorValue? {p : Part} {v : Text} (h : p.operatorValue? = some v) :
    p.Filled ↔ v ≠ [] := by
  cases p <;> cases h <;> rfl

section Spelled

variable {cal : Calendar} {w : Text} {p : Part}

theorem token_text (hw : Text.IsWord w) : token cal (.text w) = .ok w := by
  rw [token, hw.not_isAllBlank]
  rfl

/-- A part that is read from a word looks like nothing else. -/
theorem plain_of_ofToken (hw : Text.IsWord w) (h : ofToken w = .ok (some p)) : p.Plain := by
  rcases ofToken_cases_some h with ⟨rfl, hs, hd, hc⟩ | ⟨r, rfl, -⟩ | ⟨v, hv, -, hd⟩
  · rw [Plain, Text.words_of_isWord hw, List.forall_mem_singleton]
    exact ⟨hc, hd, hs⟩
  · trivial
  · exact (plain_iff_of_operatorValue? hv).mpr hd

/-- A part that is read from a word is its own content. -/
theorem content_of_ofToken (hw : Text.IsWord w) (h : ofToken w = .ok (some p)) :
    p.content cal = [p] := by
  rcases ofToken_cases_some h with ⟨rfl, -⟩ | ⟨r, rfl, -⟩ | ⟨v, hv, -⟩
  · rw [content, Text.words_of_isWord hw, List.map_singleton]
  · rfl
  · exact content_of_operatorValue? cal hv

/-- A part that is read from a word is written exactly when nothing is missing from it. -/
theorem exists_token_iff_filled (cal : Calendar) (hw : Text.IsWord w)
    (h : ofToken w = .ok (some p)) : (∃ t, p.token cal = .ok t) ↔ p.Filled := by
  rcases ofToken_cases_some h with ⟨rfl, -⟩ | ⟨r, rfl, -⟩ | ⟨v, hv, rfl, -⟩
  · exact ⟨fun _ => trivial, fun _ => ⟨w, token_text hw⟩⟩
  · simp only [token, SalaryRange.token_eq_ok_iff, Filled, exists_and_left, exists_eq, and_true]
  · rw [token_of_operatorValue? cal hv, filled_iff_of_operatorValue? hv]
    simp only [operatorToken_eq_ok_iff, exists_and_left, exists_eq, and_true]
    have hb : ∀ c ∈ v, Text.isBlank c = false := fun c hc =>
      hw.2 c (List.mem_append_right _ (List.mem_cons_of_mem _ hc))
    exact ⟨fun hv => hv.1, fun hv => ⟨hv, hb⟩⟩

/-- Respelling a word does not change whether it mentions a default site. -/
theorem mentionsHrSite_token (hw : Text.IsWord w) (h : ofToken w = .ok (some p)) {t : Text}
    (ht : p.token cal = .ok t) : mentionsHrSite t = mentionsHrSite w := by
  rcases ofToken_cases_some h with ⟨rfl, -⟩ | ⟨r, rfl, -, hr⟩ | ⟨v, hv, rfl, -⟩
  · obtain rfl := Except.ok.inj ((token_text hw).symm.trans ht)
    rfl
  · rw [not_mentionsHrSite_of_forall fun c => SalaryRange.mem_of_ofToken hr,
      not_mentionsHrSite_of_forall fun c =>
        SalaryRange.mem_of_ofToken (SalaryRange.ofToken_token ht)]
  · rw [token_of_operatorValue? cal hv, operatorToken_eq_ok_iff] at ht
    rw [ht.2]

end Spelled

end Part

namespace Query

/-- Every part of a query is spelled by one of its words. -/
theorem exists_word_of_parse {q : Text} {ps : List Part} (h : parse q = .ok ps) {p : Part}
    (hp : p ∈ ps) : ∃ w ∈ q.words, Part.ofToken w = .ok (some p) := by
  obtain ⟨rs, hr, rfl⟩ := parse_eq_ok_iff.mp h
  exact hr.exists_word (Part.mem_canonical.mp hp)

/-- Every word of a query that mentions a default site spells one of its parts. -/
theorem exists_part_of_parse {q : Text} {ps : List Part} (h : parse q = .ok ps) {w : Text}
    (hw : w ∈ q.words) (hm : mentionsHrSite w = true) :
    ∃ p ∈ ps, Part.ofToken w = .ok (some p) := by
  obtain ⟨rs, hr, rfl⟩ := parse_eq_ok_iff.mp h
  have hs : w ∉ structuralTokens := by
    have hall : ∀ s ∈ structuralTokens, mentionsHrSite s = false := by decide +kernel
    intro hs
    rw [hall w hs] at hm
    cases hm
  obtain ⟨p, hp, hw⟩ := hr.exists_part hw hs
  exact ⟨p, Part.mem_canonical.mpr hp, hw⟩

/-- What was read is written exactly when nothing is missing from a part. -/
theorem exists_build_iff_of_parse {q : Text} {ps : List Part} (h : parse q = .ok ps)
    (cal : Calendar) : (∃ s, build cal ps = .ok s) ↔ ∀ p ∈ ps, p.Filled := by
  simp only [build_eq_ok_iff, exists_and_left, exists_eq, and_true]
  refine forall_congr' fun p => imp_congr_right fun hp => ?_
  obtain ⟨w, hw, hpw⟩ := exists_word_of_parse h hp
  rw [← Part.exists_token_iff_filled cal (Text.isWord_of_mem_words hw) hpw]
  constructor
  · exact fun ht => ⟨_, ht⟩
  · rintro ⟨t, ht⟩
    rw [Part.written_of_token ht, ht]

/-- The default sites are added exactly when the query mentions none of them. -/
theorem content_of_parse {cal : Calendar} {q s : Text} {ps : List Part} (h : parse q = .ok ps)
    (hb : build cal ps = .ok s) :
    content cal ps = ps ++ if mentionsHrSite q then [] else hrSites.map .site := by
  have ht := (build_eq_ok_iff.mp hb).1
  have hm : ps.any (fun p => mentionsHrSite (p.written cal)) = mentionsHrSite q := by
    rw [Bool.eq_iff_iff, List.any_eq_true, mentionsHrSite_iff_exists_word]
    constructor
    · rintro ⟨p, hp, hm⟩
      obtain ⟨w, hw, hpw⟩ := exists_word_of_parse h hp
      rw [Part.mentionsHrSite_token (Text.isWord_of_mem_words hw) hpw (ht p hp)] at hm
      exact ⟨w, hw, hm⟩
    · rintro ⟨w, hw, hm⟩
      obtain ⟨p, hp, hpw⟩ := exists_part_of_parse h hw hm
      rw [← Part.mentionsHrSite_token (Text.isWord_of_mem_words hw) hpw (ht p hp)] at hm
      exact ⟨p, hp, hm⟩
  have hc : ps.map (Part.content cal) = ps.map fun p => [p] := by
    refine List.map_congr_left fun p hp => ?_
    obtain ⟨w, hw, hpw⟩ := exists_word_of_parse h hp
    exact Part.content_of_ofToken (Text.isWord_of_mem_words hw) hpw
  rw [content, hm, List.flatMap_def, hc, ← List.flatMap_def, List.flatMap_singleton']

/-- What was read is written so that it is read again, with the default sites if the query mentions
none of them. -/
theorem parse_of_build_of_parse {cal : Calendar} {q s : Text} {ps : List Part}
    (h : parse q = .ok ps) (hb : build cal ps = .ok s) :
    parse s =
      .ok (Part.canonical (ps ++ if mentionsHrSite q then [] else hrSites.map .site)) := by
  rw [← content_of_parse h hb]
  refine parse_of_reads (reads_of_build hb fun p hp => ?_)
  obtain ⟨w, hw, hpw⟩ := exists_word_of_parse h hp
  exact Part.plain_of_ofToken (Text.isWord_of_mem_words hw) hpw

/-- Every query that is written mentions a default site. -/
theorem mentionsHrSite_of_build {cal : Calendar} {ps : List Part} {s : Text}
    (h : build cal ps = .ok s) : mentionsHrSite s = true := by
  rw [mentionsHrSite_iff_exists_word, words_of_build h]
  split
  · next hm =>
    obtain ⟨p, hp, hm⟩ := List.any_eq_true.mp hm
    obtain ⟨w, hw, hm⟩ := mentionsHrSite_iff_exists_word.mp hm
    exact ⟨w, List.mem_append_left _ (List.mem_flatMap.mpr ⟨p, hp, hw⟩), hm⟩
  · have hg : ∃ w ∈ defaultSiteGroup.words, mentionsHrSite w = true := by decide +kernel
    obtain ⟨w, hw, hm⟩ := hg
    exact ⟨w, List.mem_append_right _ hw, hm⟩

/-- Reads a query and writes what was read. -/
def rebuild (cal : Calendar) (query : Text) : Except QueryError Text := parse query >>= build cal

theorem rebuild_eq_ok_iff {cal : Calendar} {q s : Text} :
    rebuild cal q = .ok s ↔ ∃ ps, parse q = .ok ps ∧ build cal ps = .ok s := by
  rw [rebuild]
  cases hq : parse q with
  | error e => simp only [bind, Except.bind, reduceCtorEq, false_and, exists_false]
  | ok ps => simp only [bind, Except.bind, Except.ok.injEq, exists_eq_left']

/-- A query that mentions a default site is read after rebuilding as before, and rebuilding it once
more changes nothing. -/
theorem rebuild_of_mentionsHrSite {cal : Calendar} {q s : Text} (hm : mentionsHrSite q = true)
    (h : rebuild cal q = .ok s) : parse s = parse q ∧ rebuild cal s = .ok s := by
  obtain ⟨ps, hq, hb⟩ := rebuild_eq_ok_iff.mp h
  have hs : parse s = .ok ps := by
    rw [parse_of_build_of_parse hq hb, if_pos hm, List.append_nil]
    obtain ⟨rs, -, rfl⟩ := parse_eq_ok_iff.mp hq
    rw [Part.canonical_canonical]
  exact ⟨hs.trans hq.symm, rebuild_eq_ok_iff.mpr ⟨ps, hs, hb⟩⟩

/-- A rebuilt query can be rebuilt. -/
theorem exists_rebuild_of_rebuild {cal : Calendar} {q s : Text} (h : rebuild cal q = .ok s) :
    ∃ s₂, rebuild cal s = .ok s₂ := by
  obtain ⟨ps, hq, hb⟩ := rebuild_eq_ok_iff.mp h
  have hs := parse_of_build_of_parse hq hb
  have hf := (exists_build_iff_of_parse hq cal).mp ⟨s, hb⟩
  have hsites : ∀ p ∈ hrSites.map Part.site, p.Filled := by
    intro p hp
    obtain ⟨v, hv, rfl⟩ := List.mem_map.mp hp
    exact (isWord_of_mem_hrSites hv).1
  obtain ⟨s₂, hb₂⟩ := (exists_build_iff_of_parse hs cal).mpr fun p hp => by
    rcases List.mem_append.mp (Part.mem_canonical.mp hp) with hp | hp
    · exact hf p hp
    · split at hp
      · cases hp
      · exact hsites p hp
  exact ⟨s₂, rebuild_eq_ok_iff.mpr ⟨_, hs, hb₂⟩⟩

/-- Rebuilding is a normal form that keeps the fingerprint. It succeeds exactly when the query is
read and nothing is missing from a part. A rebuilt query is read as before, with the default sites
if no word mentioned one; it can be rebuilt, is read the same after that, and then no longer
changes. Of a query that was written from parts even the first rebuilding keeps the reading. -/
theorem rebuild_normal_form (cal : Calendar) :
    (∀ q, (∃ s, rebuild cal q = .ok s) ↔ ∃ ps, parse q = .ok ps ∧ ∀ p ∈ ps, p.Filled) ∧
    (∀ q s, rebuild cal q = .ok s →
      (∃ ps, parse q = .ok ps ∧
        parse s = .ok (if ∃ w ∈ q.words, mentionsHrSite w = true then ps
          else Part.canonical (ps ++ hrSites.map .site))) ∧
      ∃ s₂, rebuild cal s = .ok s₂ ∧ parse s₂ = parse s ∧ rebuild cal s₂ = .ok s₂ ∧
        ((∃ w ∈ q.words, mentionsHrSite w = true) → s₂ = s)) ∧
    ∀ cal' ps s s', build cal' ps = .ok s → rebuild cal s = .ok s' →
      parse s' = parse s ∧ rebuild cal s' = .ok s' ∧
        ∃ id, fingerprint s = .ok id ∧ fingerprint s' = .ok id := by
  refine ⟨fun q => ?_, fun q s h => ⟨?_, ?_⟩, fun cal' ps s s' hb h => ?_⟩
  · simp only [rebuild_eq_ok_iff]
    constructor
    · rintro ⟨s, ps, hq, hb⟩
      exact ⟨ps, hq, (exists_build_iff_of_parse hq cal).mp ⟨s, hb⟩⟩
    · rintro ⟨ps, hq, hf⟩
      obtain ⟨s, hb⟩ := (exists_build_iff_of_parse hq cal).mpr hf
      exact ⟨s, ps, hq, hb⟩
  · obtain ⟨ps, hq, hb⟩ := rebuild_eq_ok_iff.mp h
    refine ⟨ps, hq, ?_⟩
    rw [parse_of_build_of_parse hq hb]
    simp only [← mentionsHrSite_iff_exists_word]
    split
    · obtain ⟨rs, -, rfl⟩ := parse_eq_ok_iff.mp hq
      rw [List.append_nil, Part.canonical_canonical]
    · rfl
  · -- The rebuilt query mentions a default site, so no more are added from here on.
    obtain ⟨ps, hq, hb⟩ := rebuild_eq_ok_iff.mp h
    obtain ⟨s₂, h₂⟩ := exists_rebuild_of_rebuild h
    obtain ⟨hp, hr⟩ := rebuild_of_mentionsHrSite (mentionsHrSite_of_build hb) h₂
    refine ⟨s₂, h₂, hp, hr, fun hm => ?_⟩
    have hs := (rebuild_of_mentionsHrSite (mentionsHrSite_iff_exists_word.mpr hm) h).2
    exact Except.ok.inj (h₂.symm.trans hs)
  · obtain ⟨hp, hr⟩ := rebuild_of_mentionsHrSite (mentionsHrSite_of_build hb) h
    obtain ⟨rs, hs, -⟩ := rebuild_eq_ok_iff.mp h
    refine ⟨hp, hr, Part.fingerprint rs, ?_, ?_⟩
    · rw [fingerprint, hs]
      rfl
    · rw [fingerprint, hp, hs]
      rfl

theorem rebuild_normal_form_reordered :
    let cal := Calendar.pinned ⟨2024, 7, 20, by decide⟩
    let ps : List Part := [.site "lever.co".toList, .salary ⟨some 7, some 20⟩, .text "rust".toList]
    let q : Text := "site:lever.co 7..20 rust".toList
    let s : Text := "rust 7..20 site:lever.co".toList
    (build cal ps = .ok q ∧ rebuild cal q = .ok s) ∧ (parse s = parse q ∧ rebuild cal s = .ok s) ∧
      ∃ id, fingerprint q = .ok id ∧ fingerprint s = .ok id := by
  intro cal ps q s
  have hp : build cal ps = .ok q := by decide +kernel
  have hq : parse q = .ok [.text "rust".toList, .salary ⟨some 7, some 20⟩,
      .site "lever.co".toList] := parse_eq_ok_iff.mpr ⟨ps, rfl,
    (Part.canonical_eq_of_forall_mem (by decide +kernel) (by decide +kernel)).symm⟩
  have h : rebuild cal q = .ok s := rebuild_eq_ok_iff.mpr ⟨_, hq, by decide +kernel⟩
  obtain ⟨-, s₂, h₂, -, -, hs⟩ := (rebuild_normal_form cal).2.1 q s h
  obtain rfl : s₂ = s := hs (by decide +kernel)
  obtain ⟨hr, -, hid⟩ := (rebuild_normal_form cal).2.2 cal ps q s hp h
  exact ⟨⟨hp, h⟩, ⟨hr, h₂⟩, hid⟩

end Query

end JobSearch
