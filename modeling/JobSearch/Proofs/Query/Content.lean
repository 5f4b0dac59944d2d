import JobSearch.Proofs.Query.Writing

/-!
# What is read back of a written query

Texts come back word by word and days relative to today as the bounds that they resolve to; all else
comes back as it was. This holds of a list of parts exactly when no word of a text and no value of
an operator looks like something else.
-/

namespace JobSearch

namespace Part

/-- What is meant to be read back of a part: a text word by word, a day relative to today as the
bound that it resolves to, and any other part as it is. -/
def content (cal : Calendar) : Part → List Part
  | .text t => t.words.map .text
  | .lastMonth m =>
    match cal.lastMonth m with
    | .ok month => [.after (operatorDate month)]
    | .error _ => []
  | .site v => [.site v]
  | .after v => [.after v]
  | .before v => [.before v]
  | .salary r => [.salary r]

/-- Nothing in a part looks like something else: no word of a text has a colon or two dots or only
groups others, and no value of an operator has two dots. -/
def Plain : Part → Prop
  | .text t => ∀ w ∈ t.words, ':' ∉ w ∧ ¬ rangeDots <:+: w ∧ w ∉ structuralTokens
  | .site v => ¬ rangeDots <:+: v
  | .after v => ¬ rangeDots <:+: v
  | .before v => ¬ rangeDots <:+: v
  | .lastMonth _ => True
  | .salary _ => True

instance : DecidablePred Plain
  | .text t => inferInstanceAs
      (Decidable (∀ w ∈ t.words, ':' ∉ w ∧ ¬ rangeDots <:+: w ∧ w ∉ structuralTokens))
  | .site v => inferInstanceAs (Decidable (¬ rangeDots <:+: v))
  | .after v => inferInstanceAs (Decidable (¬ rangeDots <:+: v))
  | .before v => inferInstanceAs (Decidable (¬ rangeDots <:+: v))
  | .lastMonth _ => inferInstanceAs (Decidable True)
  | .salary _ => inferInstanceAs (Decidable True)

theorem content_of_operatorValue? (cal : Calendar) {p : Part} {v : Text}
    (h : p.operatorValue? = some v) : p.content cal = [p] := by
  cases p <;> cases h <;> rfl

theorem plain_iff_of_operatorValue? {p : Part} {v : Text} (h : p.operatorValue? = some v) :
    p.Plain ↔ ¬ rangeDots <:+: v := by
  cases p <;> cases h <;> rfl

theorem not_dots_isInfix_operatorDate (d : Date) : ¬ rangeDots <:+: operatorDate d := by
  intro h
  rcases mem_operatorDate (h.subset (by decide : '.' ∈ rangeDots)) with hd | hd
  · exact absurd hd (by decide)
  · exact absurd hd (by decide)

/-- An operator that is written is read back exactly when its value has no two dots. -/
theorem reads_operator {cal : Calendar} {p : Part} {v t : Text} (hv : p.operatorValue? = some v)
    (ht : p.token cal = .ok t) (hd : ¬ rangeDots <:+: v) : Query.Reads t.words [p] := by
  rw [token_of_operatorValue? cal hv, operatorToken_eq_ok_iff] at ht
  obtain ⟨hw, rfl⟩ := ht
  rw [Text.words_of_isWord (isWord_operator p.kind hw)]
  exact Query.reads_singleton (ofToken_of_operator hv hd)

/-- Words that look like nothing else are read as texts, one by one. -/
theorem reads_texts {ws : List Text} (hne : ∀ w ∈ ws, w ≠ [])
    (h : ∀ w ∈ ws, ':' ∉ w ∧ ¬ rangeDots <:+: w ∧ w ∉ structuralTokens) :
    Query.Reads ws (ws.map .text) := by
  induction ws with
  | nil => exact Query.reads_nil
  | cons w ws ih =>
    rw [List.forall_mem_cons] at hne h
    obtain ⟨⟨hc, hd, hs⟩, h⟩ := h
    rw [List.map_cons, Query.reads_cons hs]
    exact ⟨_, _, rfl, ofToken_of_plain hne.1 hs hd hc, ih hne.2 h⟩

/-- The words of a part that is written are read as its content, if nothing in it looks like
something else. -/
theorem reads_content {cal : Calendar} {p : Part} {t : Text} (ht : p.token cal = .ok t)
    (hp : p.Plain) : Query.Reads t.words (p.content cal) := by
  cases p with
  | text u =>
    rw [token] at ht
    split at ht
    · cases ht
    · obtain rfl := Except.ok.inj ht
      exact reads_texts (fun w hw => Text.ne_nil_of_mem_words hw) hp
  | site v => exact reads_operator rfl ht hp
  | after v => exact reads_operator rfl ht hp
  | before v => exact reads_operator rfl ht hp
  | salary r =>
    rw [Text.words_of_isWord (SalaryRange.isWord_of_token ht)]
    refine Query.reads_singleton ?_
    obtain ⟨-, he⟩ := SalaryRange.token_eq_ok_iff.mp ht
    have hd : rangeDots <:+: t := by
      rw [he]
      exact List.infix_append ..
    rw [ofToken_of_dots hd, SalaryRange.ofToken_token ht]
    rfl
  | lastMonth m =>
    rw [token] at ht
    cases hm : cal.lastMonth m with
    | error e => rw [hm] at ht; cases ht
    | ok month =>
      rw [hm] at ht
      obtain rfl := Except.ok.inj ht
      have hw := isWord_operator .after (isWord_operatorDate month)
      rw [content, hm, Text.words_of_isWord hw]
      exact Query.reads_singleton
        (ofToken_of_operator (p := .after (operatorDate month)) rfl
          (not_dots_isInfix_operatorDate month))

end Part

namespace Query

/-- What is meant to be read back of a list of parts: the contents of the parts in order, and the
default sites if no part mentions one. -/
def content (cal : Calendar) (ps : List Part) : List Part :=
  ps.flatMap (Part.content cal) ++
    if ps.any (fun p => mentionsHrSite (p.written cal)) then [] else hrSites.map .site

/-- The words of a written list of plain parts are read as its content. -/
theorem reads_of_build {cal : Calendar} {ps : List Part} {s : Text} (h : build cal ps = .ok s)
    (hp : ∀ p ∈ ps, p.Plain) : Reads s.words (content cal ps) := by
  have ht := (build_eq_ok_iff.mp h).1
  rw [words_of_build h, content]
  refine (reads_flatMap fun p hm => Part.reads_content (ht p hm) (hp p hm)).append ?_
  split
  · exact reads_nil
  · exact reads_defaultSiteGroup

/-- Only words that look like nothing else are read as texts. -/
theorem Reads.plain_of_text_mem {ws : List Text} {rs : List Part} (h : Reads ws rs) {w : Text}
    (hw : .text w ∈ rs) : ':' ∉ w ∧ ¬ rangeDots <:+: w ∧ w ∉ structuralTokens := by
  obtain ⟨v, -, hv⟩ := h.exists_word hw
  rcases Part.ofToken_cases_some hv with ⟨he, hs, hd, hc⟩ | ⟨r, he, -⟩ | ⟨u, hu, -⟩
  · obtain rfl := Part.text.inj he
    exact ⟨hc, hd, hs⟩
  · cases he
  · cases hu

/-- Words that are read have no operator whose value has two dots. -/
theorem Reads.not_dots_isInfix {ws : List Text} {rs : List Part} (h : Reads ws rs) {k : PartKind}
    {v : Text} (hw : k.name ++ ':' :: v ∈ ws) : ¬ rangeDots <:+: v := by
  intro hd
  have hs := Part.not_mem_structuralTokens_of_colon (w := k.name ++ ':' :: v) (by simp)
  obtain ⟨p, -, hp⟩ := h.exists_part hw hs
  exact Part.ofToken_ne_ok_of_dots hd _ hp

/-- A list of parts is plain if its content is read from what is written, in any order. -/
theorem plain_of_reads {cal : Calendar} {ps rs : List Part} {s : Text} (h : build cal ps = .ok s)
    (hr : Reads s.words rs) (hm : ∀ p ∈ content cal ps, p ∈ rs) : ∀ p ∈ ps, p.Plain := by
  intro p hp
  have hword : ∀ w ∈ (p.written cal).words, w ∈ s.words := by
    intro w hw
    rw [words_of_build h]
    exact List.mem_append_left _ (List.mem_flatMap.mpr ⟨p, hp, hw⟩)
  -- An operator is one word of the query, and with two dots that word could not be read at all.
  have hop {v : Text} (hv : p.operatorValue? = some v) : ¬ rangeDots <:+: v := by
    have ht := (build_eq_ok_iff.mp h).1 p hp
    rw [Part.token_of_operatorValue? cal hv, Part.operatorToken_eq_ok_iff] at ht
    obtain ⟨hw, he⟩ := ht
    refine hr.not_dots_isInfix (k := p.kind) (hword _ ?_)
    rw [he, Text.words_of_isWord (Part.isWord_operator p.kind hw)]
    exact List.mem_singleton_self _
  cases p with
  | text t =>
    intro w hw
    have hc : .text w ∈ Part.content cal (.text t) := List.mem_map_of_mem hw
    exact hr.plain_of_text_mem (hm _ (List.mem_append_left _ (List.mem_flatMap.mpr ⟨_, hp, hc⟩)))
  | site v => exact hop rfl
  | after v => exact hop rfl
  | before v => exact hop rfl
  | lastMonth m => trivial
  | salary r => trivial

/-- What is written is read back as the canonical form of its content exactly when no word of a text
and no value of an operator looks like something else; then no part is lost, added, split or
merged. -/
theorem parse_build_iff_plain {cal : Calendar} {ps : List Part} {s : Text}
    (h : build cal ps = .ok s) :
    (parse s = .ok (Part.canonical (content cal ps)) ↔ ∀ p ∈ ps, p.Plain) ∧
      ((∀ p ∈ ps, p.Plain) → ∃ qs, parse s = .ok qs ∧ qs.Perm (content cal ps)) := by
  have hb (hp : ∀ p ∈ ps, p.Plain) : parse s = .ok (Part.canonical (content cal ps)) :=
    parse_of_reads (reads_of_build h hp)
  refine ⟨⟨fun hs => ?_, hb⟩, fun hp => ⟨_, hb hp, Part.canonical_perm _⟩⟩
  obtain ⟨rs, hr, he⟩ := parse_eq_ok_iff.mp hs
  refine plain_of_reads h hr fun p hp => ?_
  rwa [← Part.mem_canonical, he, Part.mem_canonical] at hp

theorem parse_build_iff_plain_senior_rust :
    let cal := Calendar.pinned ⟨2024, 7, 20, by decide⟩
    let ps : List Part := [.text "senior  rust".toList, .lastMonth none, .site "lever.co".toList,
      .salary ⟨some 90000, some 100000⟩]
    let s : Text := "senior  rust after:2024-06-01 site:lever.co 90000..100000".toList
    build cal ps = .ok s ∧ parse s = .ok (Part.canonical (content cal ps)) := by
  intro cal ps s
  have h : build cal ps = .ok s := by decide +kernel
  exact ⟨h, (parse_build_iff_plain h).1.mpr (by decide +kernel)⟩

end Query

end JobSearch
