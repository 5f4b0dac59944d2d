import JobSearch.Proofs.Query.Rebuild
import JobSearch.Proofs.Query.Shape

/-!
# Filling a form in again

A search form is filled in again from a shape: one text of all terms, the salary range and the
sites. What is written for it is read back with the same shape, but for the default sites that are
added where no site is mentioned. The terms come back although they are written as one text, since
each of them was one word and is one again.
-/

namespace JobSearch

open JobSearch.Part

namespace SalaryRange

/-- The salary range that has these bounds, the lower one first. -/
def ofBounds? : List UInt64 → Option SalaryRange
  | [] => none
  | min :: rest => some ⟨some min, rest.head?⟩

/-- A range that is not open below is found again from its bounds. -/
theorem ofBounds?_bounds {r : SalaryRange} (h : r.min ≠ none) : ofBounds? r.bounds = some r := by
  obtain ⟨_ | min, max⟩ := r
  · exact absurd rfl h
  · cases max <;> rfl

/-- The only range of a list is found again from its bounds. -/
theorem toList_ofBounds?_flatMap_bounds {rs : List SalaryRange} (hl : rs.length ≤ 1)
    (h : ∀ r ∈ rs, r.min ≠ none) : (ofBounds? (rs.flatMap bounds)).toList = rs := by
  match rs, hl with
  | [], _ => rfl
  | [r], _ =>
    rw [List.flatMap_singleton, ofBounds?_bounds (h r (List.mem_singleton_self r))]
    rfl

end SalaryRange

namespace Shape

/-- The parts with which a form is filled in again. -/
def refill (s : Shape) : List Part :=
  (if s.terms.isEmpty then [] else [.text s.terms]) ++
    (SalaryRange.ofBounds? s.salary).toList.map .salary ++ s.sites.map .site

/-- The parts of which a shape keeps something. -/
def kept (ps : List Part) : List Part :=
  (texts ps).map .text ++ (ranges ps).map .salary ++ (sitesOf ps).map .site

theorem mem_of_mem_kept {ps : List Part} {p : Part} (h : p ∈ kept ps) : p ∈ ps := by
  simp only [kept, List.mem_append, List.mem_map, texts, ranges, sitesOf_eq,
    List.mem_filterMap] at h
  rcases h with (⟨t, ⟨q, hq, ht⟩, rfl⟩ | ⟨r, ⟨q, hq, hr⟩, rfl⟩) | ⟨v, ⟨q, hq, hv⟩, rfl⟩
  · cases q <;> cases ht
    exact hq
  · cases q <;> cases hr
    exact hq
  · obtain ⟨rfl, -⟩ := eq_site_of_siteValue? hv
    exact hq

theorem nil_not_mem_sitesOf (ps : List Part) : [] ∉ sitesOf ps := by
  rw [sitesOf_eq, List.mem_filterMap]
  rintro ⟨p, -, hp⟩
  exact (eq_site_of_siteValue? hp).2 rfl

section Added

variable (ps : List Part) {vs : List Text}

theorem texts_kept_append_sites : texts (kept ps ++ vs.map .site) = texts ps := by
  simp [kept, texts, List.filterMap_map, Function.comp_def, text?]

theorem ranges_kept_append_sites : ranges (kept ps ++ vs.map .site) = ranges ps := by
  simp [kept, ranges, List.filterMap_map, Function.comp_def, range?]

theorem sitesOf_map_site (h : [] ∉ vs) : sitesOf (vs.map .site) = vs := by
  rw [sitesOf_eq, List.filterMap_map]
  refine (List.filterMap_congr fun v hv => ?_).trans List.filterMap_some
  exact if_neg fun he => h (List.isEmpty_iff.mp he ▸ hv)

theorem sitesOf_kept_append_sites (h : [] ∉ vs) :
    sitesOf (kept ps ++ vs.map .site) = sitesOf ps ++ vs := by
  have htexts : sitesOf ((texts ps).map .text) = [] := by
    simp [sitesOf, List.filterMap_map]
  have hranges : sitesOf ((ranges ps).map .salary) = [] := by
    simp [sitesOf, List.filterMap_map]
  rw [sitesOf_append, kept, sitesOf_append, sitesOf_append, htexts, hranges, List.nil_append,
    List.nil_append, sitesOf_map_site (nil_not_mem_sitesOf ps), sitesOf_map_site h]

end Added

end Shape

namespace Query

open Shape

/-- The default sites that are added when these parts are written. -/
def addedSites (cal : Calendar) (ps : List Part) : List Text :=
  if ps.any fun p => mentionsHrSite (p.written cal) then [] else hrSites

theorem nil_not_mem_addedSites (cal : Calendar) (ps : List Part) : [] ∉ addedSites cal ps := by
  rw [addedSites]
  split <;> decide

section Refilled

variable (cal : Calendar) {q : Text} {ps : List Part} {s : Shape}

/-- A free text of a query is one word that looks like nothing else. -/
theorem isWord_of_mem_texts (h : parse q = .ok ps) {t : Text} (ht : t ∈ texts ps) :
    Text.IsWord t ∧ ':' ∉ t ∧ ¬ rangeDots <:+: t ∧ t ∉ structuralTokens := by
  obtain ⟨p, hp, hpt⟩ := List.mem_filterMap.mp ht
  obtain ⟨w, hw, hwp⟩ := exists_word_of_parse h hp
  have hword := Text.isWord_of_mem_words hw
  rcases ofToken_cases_some hwp with ⟨rfl, hs, hd, hc⟩ | ⟨r, rfl, -⟩ | ⟨v, hv, -⟩
  · obtain rfl := Option.some.inj hpt
    exact ⟨hword, hc, hd, hs⟩
  · cases hpt
  · cases p <;> cases hv <;> cases hpt

/-- The shape of a query that is read as these parts. -/
theorem shape_eq_ok_iff_of_parse (h : parse q = .ok ps) :
    shape q = .ok s ↔ (∀ r ∈ ranges ps, r.min ≠ none) ∧
      s = ⟨Text.unwords (texts ps), (ranges ps).flatMap SalaryRange.bounds, sitesOf ps⟩ := by
  have hne : [] ∉ texts ps := fun ht => (isWord_of_mem_texts h ht).1.1 rfl
  have hc : canonical ps = ps := by
    obtain ⟨rs, -, rfl⟩ := parse_eq_ok_iff.mp h
    exact canonical_canonical rs
  have hp := ofParts_canonical hne
  rw [hc] at hp
  rw [shape, h]
  simp only [hp]
  split
  · next ho =>
    obtain ⟨r, hr, hm⟩ := ho
    simp only [reduceCtorEq, false_iff]
    exact fun hs => hs.1 r hr hm
  · next ho =>
    rw [Except.ok.injEq, eq_comm, iff_and_self]
    exact fun _ r hr hm => ho ⟨r, hr, hm⟩

variable (h : parse q = .ok ps) (hs : shape q = .ok s) (hone : (ranges ps).length ≤ 1)

include h hs hone

/-- The parts that fill a form in again are those that the shape keeps, with one text for all
terms. -/
theorem refill_of_shape :
    s.refill = (if texts ps = [] then [] else [.text (Text.unwords (texts ps))]) ++
      (ranges ps).map .salary ++ (sitesOf ps).map .site := by
  obtain ⟨hmin, rfl⟩ := (shape_eq_ok_iff_of_parse h).mp hs
  have hterms : (Text.unwords (texts ps)).isEmpty = true ↔ texts ps = [] := by
    rw [List.isEmpty_iff]
    refine ⟨fun he => ?_, fun he => he ▸ rfl⟩
    have hw := Text.words_unwords_of_isWord fun t ht => (isWord_of_mem_texts h ht).1
    rw [← hw, he, Text.words_nil]
  simp only [refill, hterms, SalaryRange.toList_ofBounds?_flatMap_bounds hone hmin]

/-- What fills a form in again is meant to be read back as what the shape keeps. -/
theorem flatMap_content_refill : s.refill.flatMap (Part.content cal) = kept ps := by
  have hterms : (if texts ps = [] then [] else [.text (Text.unwords (texts ps))]).flatMap
      (Part.content cal) = (texts ps).map .text := by
    split
    · next he =>
      rw [he]
      rfl
    · rw [List.flatMap_singleton, Part.content,
        Text.words_unwords_of_isWord fun t ht => (isWord_of_mem_texts h ht).1]
  have hranges : ((ranges ps).map .salary).flatMap (Part.content cal) =
      (ranges ps).map .salary := by
    rw [List.flatMap_map]
    exact List.map_eq_flatMap.symm
  have hsites : ((sitesOf ps).map .site).flatMap (Part.content cal) = (sitesOf ps).map .site := by
    rw [List.flatMap_map]
    exact List.map_eq_flatMap.symm
  rw [refill_of_shape h hs hone, List.flatMap_append, List.flatMap_append, hterms, hranges,
    hsites, kept]

/-- What fills a form in again can be written, and nothing in it looks like something else. -/
theorem written_of_mem_refill (hmax : ∀ r ∈ ranges ps, r.Writable) {p : Part} (hp : p ∈ s.refill) :
    (∃ t, p.token cal = .ok t) ∧ p.Plain := by
  have hword {t : Text} (ht : t ∈ texts ps) := (isWord_of_mem_texts h ht).1
  rw [refill_of_shape h hs hone, List.mem_append, List.mem_append, List.mem_map, List.mem_map] at hp
  rcases hp with (hp | ⟨r, hr, rfl⟩) | ⟨v, hv, rfl⟩
  · split at hp
    · cases hp
    · next hne =>
      obtain rfl := List.mem_singleton.mp hp
      constructor
      · rw [Part.token, Text.not_isAllBlank_unwords hne fun t => hword]
        exact ⟨_, rfl⟩
      · rw [Part.Plain, Text.words_unwords_of_isWord fun t => hword]
        exact fun t ht => (isWord_of_mem_texts h ht).2
  · exact ⟨⟨_, SalaryRange.token_eq_ok_iff.mpr ⟨hmax r hr, rfl⟩⟩, trivial⟩
  · have hne : v ≠ [] := fun he => nil_not_mem_sitesOf ps (he ▸ hv)
    have hmem : .site v ∈ kept ps := List.mem_append_right _ (List.mem_map_of_mem hv)
    obtain ⟨w, hw, hwp⟩ := exists_word_of_parse h (mem_of_mem_kept hmem)
    have hw := Text.isWord_of_mem_words hw
    exact ⟨(exists_token_iff_filled cal hw hwp).mpr hne, plain_of_ofToken hw hwp⟩

theorem content_refill :
    content cal s.refill = kept ps ++ (addedSites cal s.refill).map .site := by
  rw [content, flatMap_content_refill cal h hs hone, addedSites]
  split <;> rfl

/-- A form that is filled in again leads back to its shape, with the sites that are added. -/
theorem exists_build_refill (hmax : ∀ r ∈ ranges ps, r.Writable) :
    ∃ q' s', build cal s.refill = .ok q' ∧ shape q' = .ok s' ∧ s'.terms = s.terms ∧
      s'.salary = s.salary ∧ Text.IsSorting (s.sites ++ addedSites cal s.refill) s'.sites := by
  have hall := fun p (hp : p ∈ s.refill) => written_of_mem_refill cal h hs hone hmax hp
  obtain ⟨q', hb⟩ : ∃ q', build cal s.refill = .ok q' := by
    refine ⟨_, build_eq_ok_iff.mpr ⟨fun p hp => ?_, rfl⟩⟩
    obtain ⟨t, ht⟩ := (hall p hp).1
    rw [written_of_token ht, ht]
  have hr := parse_of_reads (reads_of_build hb fun p hp => (hall p hp).2)
  rw [content_refill cal h hs hone] at hr
  obtain ⟨hmin, he⟩ := (shape_eq_ok_iff_of_parse h).mp hs
  refine ⟨q', _, hb, (shape_eq_ok_iff_of_parse hr).mpr ⟨?_, rfl⟩, ?_, ?_, ?_⟩
  · rwa [ranges_canonical, ranges_kept_append_sites]
  · rw [texts_canonical, texts_kept_append_sites, he]
  · rw [ranges_canonical, ranges_kept_append_sites, he]
  · have hsites : s.sites = sitesOf ps := by rw [he]
    rw [hsites, ← sitesOf_kept_append_sites ps (nil_not_mem_addedSites cal s.refill)]
    exact isSorting_sitesOf _

end Refilled

/-- A query has as many salary ranges as words that look like one. -/
theorem length_ranges_of_parse {q : Text} {ps : List Part} (h : parse q = .ok ps) :
    (ranges ps).length = (rangeWords q.words).length := by
  obtain ⟨os, hos, rfl⟩ := parse_eq_ok_iff_spells.mp h
  rw [ranges_canonical]
  exact (forall₂_ranges_of_spells hos).length_eq.symm

/-- The parts of a query are those that its words spell. -/
theorem mem_iff_spells_of_parse {q : Text} {ps : List Part} (h : parse q = .ok ps) {p : Part} :
    p ∈ ps ↔ ∃ w ∈ q.words, Part.Spells w (some p) := by
  constructor
  · intro hp
    obtain ⟨w, hw, hwp⟩ := exists_word_of_parse h hp
    exact ⟨w, hw, (ofToken_eq_ok_iff (Text.ne_nil_of_mem_words hw)).mp hwp⟩
  · rintro ⟨w, hw, hwp⟩
    have hwp := (ofToken_eq_ok_iff (Text.ne_nil_of_mem_words hw)).mpr hwp
    obtain ⟨rs, hr, rfl⟩ := parse_eq_ok_iff.mp h
    obtain ⟨p', hp, hwp'⟩ := hr.exists_part hw (not_mem_structuralTokens hwp)
    obtain rfl := Option.some.inj (Except.ok.inj (hwp.symm.trans hwp'))
    exact mem_canonical.mpr hp

/-- A form that is filled in again from the shape of a query leads back to the shape, if the query
has at most one salary range and its upper bound is not excessive. The terms and the bounds are the
same, and so are the sites if a default site is mentioned; otherwise all of these are added, in
order. -/
theorem shape_refill {q : Text} {s : Shape} (cal : Calendar) (h : shape q = .ok s)
    (hone : (rangeWords q.words).length ≤ 1)
    (hmax : ∀ w ∈ q.words, ∀ r, Part.Spells w (some (.salary r)) → ∀ max, r.max = some max →
      max.toNat ≤ salaryCeiling) :
    ∃ q' s', build cal s.refill = .ok q' ∧ shape q' = .ok s' ∧ s'.terms = s.terms ∧
      s'.salary = s.salary ∧
      ((∃ p ∈ s.refill, ∃ t, p.token cal = .ok t ∧ mentionsHrSite t = true) →
        s'.sites = s.sites) ∧
      ((¬ ∃ p ∈ s.refill, ∃ t, p.token cal = .ok t ∧ mentionsHrSite t = true) →
        Text.IsSorting (s.sites ++ hrSites) s'.sites) := by
  obtain ⟨⟨ps, hp⟩, -, hsum⟩ := shape_eq_ok_iff.mp h
  have hw : ∀ r ∈ ranges ps, r.Writable := by
    intro r hr
    have hmem : .salary r ∈ ps :=
      mem_of_mem_kept (List.mem_append_left _ (List.mem_append_right _ (List.mem_map_of_mem hr)))
    obtain ⟨w, hw, hwr⟩ := (mem_iff_spells_of_parse hp).mp hmem
    exact ⟨((shape_eq_ok_iff_of_parse hp).mp h).1 r hr, hmax w hw r hwr⟩
  rw [← length_ranges_of_parse hp] at hone
  obtain ⟨q', s', hb, hs', hterms, hsalary, hsites⟩ :=
    exists_build_refill cal hp h hone hw
  have hm : (s.refill.any fun p => mentionsHrSite (p.written cal)) = true ↔
      ∃ p ∈ s.refill, ∃ t, p.token cal = .ok t ∧ mentionsHrSite t = true := by
    rw [List.any_eq_true]
    refine exists_congr fun p => and_congr_right fun hp => ?_
    simp only [(build_eq_ok_iff.mp hb).1 p hp, Except.ok.injEq, exists_eq_left']
  refine ⟨q', s', hb, hs', hterms, hsalary, fun hd => ?_, fun hd => ?_⟩
  · rw [addedSites, if_pos (hm.mpr hd), List.append_nil] at hsites
    exact hsites.unique ⟨.refl _, hsum.sites.ordered⟩
  · rwa [addedSites, if_neg fun he => hd (hm.mp he)] at hsites

/-- The terms come from a group, the bounds lose their sign and their zeros, the date is lost. -/
theorem shape_refill_grouped :
    let cal := Calendar.pinned ⟨2024, 7, 20, by decide⟩
    let q : Text := "site:x.io +007..9 ( senior OR rust ) site:lever.co after:2020-01-01".toList
    let s : Shape := ⟨"senior rust".toList, [7, 9], ["lever.co".toList, "x.io".toList]⟩
    shape q = .ok s ∧ ∃ q', build cal s.refill = .ok q' ∧ shape q' = .ok s := by
  intro cal q s
  have hq : parse q = .ok [.text "senior".toList, .text "rust".toList, .salary ⟨some 7, some 9⟩,
      .after "2020-01-01".toList, .site "lever.co".toList, .site "x.io".toList] :=
    parse_of_reads_of_ordered [.site "x.io".toList, .salary ⟨some 7, some 9⟩,
      .text "senior".toList, .text "rust".toList, .site "lever.co".toList,
      .after "2020-01-01".toList] rfl (by decide +kernel) (by decide +kernel)
  have h : shape q = .ok s := (shape_eq_ok_iff_of_parse hq).mpr ⟨by decide, by decide⟩
  obtain ⟨q', s', hb, hs', hterms, hsalary, hsites, -⟩ := shape_refill cal h (by decide +kernel)
    fun w hw r hwr max hm => by
      have hr := (mem_iff_spells_of_parse hq).mpr ⟨w, hw, hwr⟩
      simp only [List.mem_cons, reduceCtorEq, Part.salary.injEq, false_or, List.not_mem_nil,
        or_false] at hr
      subst hr
      obtain rfl := Option.some.inj hm
      decide
  have he : s' = s := by
    have hm : mentionsHrSite "site:lever.co".toList = true := by decide +kernel
    have hsites := hsites ⟨.site "lever.co".toList, by decide, _, rfl, hm⟩
    cases s'
    exact (Shape.mk.injEq ..).mpr ⟨hterms, hsalary, hsites⟩
  exact ⟨h, q', hb, he ▸ hs'⟩

end Query

end JobSearch
