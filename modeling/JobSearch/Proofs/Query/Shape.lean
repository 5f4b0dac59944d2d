import JobSearch.Proofs.Query.Acceptance
import JobSearch.Proofs.Query.Canonical
import JobSearch.Proofs.Query.Sweep

/-!
# The shape of a query, word by word

A shape is taken from sorted parts, yet its texts and its salary bounds stand in the order of the
words of the query. Only the sites are sorted, by code points, and the date bounds that are sorted
with them leave no trace. Nothing but a salary range that is open below keeps a query that is
accepted from having a shape.
-/

namespace JobSearch

/-- The texts `vs` are `ts` in the order of code points, with all repetitions. -/
structure Text.IsSorting (ts vs : List Text) : Prop where
  /-- No text is lost or added. -/
  perm : vs.Perm ts
  /-- No text stands in front of one that it comes after. -/
  ordered : vs.Pairwise Text.NoLater

theorem Text.IsSorting.unique {ts vs vs' : List Text} (h : IsSorting ts vs)
    (h' : IsSorting ts vs') : vs = vs' :=
  List.Perm.eq_of_pairwise (fun _ _ _ _ => Text.NoLater.antisymm) h.ordered h'.ordered
    (h.perm.trans h'.perm.symm)

/-- The bounds that a salary range has, the lower one first. -/
def SalaryRange.bounds (r : SalaryRange) : List UInt64 := r.min.toList ++ r.max.toList

namespace Part

/-- The value of a site that has one. -/
def siteValue? : Part → Option Text
  | .site v => if v.isEmpty then none else some v
  | _ => none

theorem eq_site_of_siteValue? {p : Part} {v : Text} (h : p.siteValue? = some v) :
    p = .site v ∧ v ≠ [] := by
  cases p with
  | site w =>
    rw [siteValue?] at h
    split at h
    · cases h
    · next hw =>
      obtain rfl := Option.some.inj h
      exact ⟨rfl, fun he => hw (List.isEmpty_iff.mpr he)⟩
  | _ => cases h

end Part

namespace Shape

open JobSearch.Part

theorem sitesOf_eq (ps : List Part) : sitesOf ps = ps.filterMap siteValue? := by
  rw [sitesOf]
  congr 1

theorem sitesOf_append (ps qs : List Part) : sitesOf (ps ++ qs) = sitesOf ps ++ sitesOf qs :=
  List.filterMap_append

/-- Without empty texts, all texts are terms. -/
theorem termsOf_of_forall {ps : List Part} (h : [] ∉ texts ps) : termsOf ps = texts ps := by
  refine List.filterMap_congr fun p hp => ?_
  cases p with
  | text t =>
    have ht : t ≠ [] := fun he => h (he ▸ List.mem_filterMap.mpr ⟨.text t, hp, rfl⟩)
    exact if_neg (by simpa using ht)
  | _ => rfl

/-- The sites of sorted parts are in the order of code points. -/
theorem isSorting_sitesOf (ps : List Part) :
    Text.IsSorting (sitesOf ps) (sitesOf (canonical ps)) := by
  rw [sitesOf_eq, sitesOf_eq]
  refine ⟨(canonical_perm ps).filterMap _, ?_⟩
  refine (List.pairwise_filterMap.mpr ?_)
  refine (ordered_canonical ps).imp fun {p q} hpq v hv w hw => ?_
  obtain ⟨rfl, -⟩ := eq_site_of_siteValue? hv
  obtain ⟨rfl, -⟩ := eq_site_of_siteValue? hw
  rcases notAfter_iff.mp hpq with hg | ⟨-, ho⟩
  · exact absurd hg (Nat.lt_irrefl 2)
  · exact ho

theorem salaryOf_eq (ps : List Part) :
    salaryOf ps = if ∃ r ∈ ranges ps, r.min = none then .error (.invalidInput .salary .openBelow)
      else .ok ((ranges ps).flatMap SalaryRange.bounds) := by
  induction ps with
  | nil => rfl
  | cons p ps ih =>
    cases p with
    | salary r =>
      have hcons : ranges (.salary r :: ps) = r :: ranges ps := rfl
      rw [salaryOf, hcons, List.flatMap_cons, SalaryRange.bounds]
      cases hr : r.min with
      | none => simp [hr]
      | some min =>
        have hmem : (∃ s ∈ r :: ranges ps, s.min = none) ↔ ∃ s ∈ ranges ps, s.min = none := by
          simp [hr]
        simp only [hmem, ih]
        split <;> rfl
    | text t => exact ih
    | site v => exact ih
    | after v => exact ih
    | before v => exact ih
    | lastMonth m => exact ih

/-- The shape of sorted parts. -/
theorem ofParts_canonical {ps : List Part} (h : [] ∉ texts ps) :
    ofParts (canonical ps) =
      if ∃ r ∈ ranges ps, r.min = none then .error (.invalidInput .salary .openBelow)
      else .ok ⟨Text.unwords (texts ps), (ranges ps).flatMap SalaryRange.bounds,
        sitesOf (canonical ps)⟩ := by
  rw [ofParts, salaryOf_eq, ranges_canonical, termsOf_of_forall (by rwa [texts_canonical]),
    texts_canonical]
  split <;> rfl

end Shape

namespace Query

/-- The words of free text: they do more than group others, and neither two dots nor a colon stand
in them. -/
def textWords (ws : List Text) : List Text :=
  ws.filter fun w => !structuralTokens.contains w && decide (¬ rangeDots <:+: w ∧ ':' ∉ w)

/-- The words of salary ranges: two dots stand in them. -/
def rangeWords (ws : List Text) : List Text := ws.filter fun w => decide (rangeDots <:+: w)

/-- The value of a word that is a site and has one. -/
def siteOfWord? (w : Text) : Option Text :=
  (w.dropPrefix? (operatorStart PartKind.site.name)).filter fun v => !v.isEmpty

/-- The values of the words that are sites and have one. -/
def siteValues (ws : List Text) : List Text := ws.filterMap siteOfWord?

/-- The shape sums up the words: texts and salary bounds as they stand, sites sorted. -/
structure SumsUp (ws : List Text) (s : Shape) : Prop where
  /-- The terms are the words of free text. -/
  terms : s.terms = Text.unwords (textWords ws)
  /-- The bounds are those that the words of salary ranges spell. -/
  salary : ∃ rs : List SalaryRange,
    List.Forall₂ (fun w r => Part.Spells w (some (.salary r))) (rangeWords ws) rs ∧
      s.salary = rs.flatMap SalaryRange.bounds
  /-- The sites are those that the words name. -/
  sites : Text.IsSorting (siteValues ws) s.sites

theorem siteOfWord?_eq_some_iff {w v : Text} :
    siteOfWord? w = some v ↔ w = PartKind.site.name ++ ':' :: v ∧ v ≠ [] := by
  rw [siteOfWord?, Option.filter_eq_some_iff, List.dropPrefix?_eq_some_iff]
  simp [operatorStart]

section Spelled

variable {ws : List Text} {os : List (Option Part)}

/-- What is picked from words and from the parts that they spell is picked alike. -/
theorem forall₂_filterMap_of_spells {α β : Type} {P : α → β → Prop} {f : Text → Option α}
    {g : Part → Option β} (h : List.Forall₂ Part.Spells ws os)
    (hfg : ∀ w o, Part.Spells w o → Option.Rel P (f w) (o.bind g)) :
    List.Forall₂ P (ws.filterMap f) ((os.filterMap id).filterMap g) := by
  rw [List.filterMap_filterMap]
  exact List.rel_filterMap (fun w o hw => hfg w o hw) h

theorem texts_of_spells (h : List.Forall₂ Part.Spells ws os) :
    Part.texts (os.filterMap id) = textWords ws := by
  have hrel := forall₂_filterMap_of_spells (P := Eq) (g := Part.text?) (f := Option.guard fun w =>
    !structuralTokens.contains w && decide (¬ rangeDots <:+: w ∧ ':' ∉ w)) h fun w o hw => by
      cases hw with
      | structural hs =>
        rw [Option.guard, if_neg (by simp [hs])]
        exact .none
      | salary hl hh =>
        rw [Option.guard, if_neg (by simp)]
        exact .none
      | text hs hd hc =>
        rw [Option.guard, if_pos (by simp [hs, hd, hc])]
        exact .some rfl
      | @operator p v hv hd =>
        rw [Option.guard, if_neg (by simp)]
        cases p <;> cases hv <;> exact .none
  rw [List.filterMap_eq_filter, List.forall₂_eq_eq_eq] at hrel
  exact hrel.symm

theorem forall₂_ranges_of_spells (h : List.Forall₂ Part.Spells ws os) :
    List.Forall₂ (fun w r => Part.Spells w (some (.salary r))) (rangeWords ws)
      (Part.ranges (os.filterMap id)) := by
  rw [rangeWords, ← List.filterMap_eq_filter]
  refine forall₂_filterMap_of_spells h fun w o hw => ?_
  cases hw with
  | structural hs =>
    have hd : ¬ rangeDots <:+: w := fun hd => Part.not_mem_structuralTokens_of_dots hd hs
    rw [Option.guard, if_neg (by simp [hd])]
    exact .none
  | salary hl hh =>
    rw [Option.guard, if_pos (by simp)]
    exact .some (.salary hl hh)
  | text hs hd hc =>
    rw [Option.guard, if_neg (by simp [hd])]
    exact .none
  | @operator p v hv hd =>
    rw [Option.guard, if_neg (by simp [Part.dots_isInfix_operator_iff, hd])]
    cases p <;> cases hv <;> exact .none

/-- A word is read as a site with a value exactly when it is one. -/
theorem siteOfWord?_of_spells {w : Text} {o : Option Part} (h : Part.Spells w o) :
    siteOfWord? w = o.bind Part.siteValue? := by
  refine Option.ext fun v => ?_
  rw [siteOfWord?_eq_some_iff, Option.bind_eq_some_iff]
  constructor
  · rintro ⟨rfl, hv⟩
    have ho := (Part.ofToken_eq_ok_iff (by simp)).mpr h
    have hd : ¬ rangeDots <:+: v := fun hd => Part.ofToken_ne_ok_of_dots hd o ho
    have hs := Part.ofToken_of_operator (p := .site v) rfl hd
    obtain rfl := Except.ok.inj (ho.symm.trans hs)
    exact ⟨.site v, rfl, if_neg (by simpa using hv)⟩
  · rintro ⟨p, rfl, hp⟩
    obtain ⟨rfl, hne⟩ := Part.eq_site_of_siteValue? hp
    cases h with
    | operator hv hd =>
      obtain rfl := Option.some.inj hv
      exact ⟨rfl, hne⟩

theorem sitesOf_of_spells (h : List.Forall₂ Part.Spells ws os) :
    Shape.sitesOf (os.filterMap id) = siteValues ws := by
  have hrel := forall₂_filterMap_of_spells (P := Eq) (g := Part.siteValue?) (f := siteOfWord?) h
    fun w o hw => by
      rw [siteOfWord?_of_spells hw]
      cases o.bind Part.siteValue? with
      | none => exact .none
      | some v => exact .some rfl
  rw [List.forall₂_eq_eq_eq] at hrel
  rw [Shape.sitesOf_eq, siteValues, hrel]

theorem rangeDots_isInfix_of_spells {w : Text} {r : SalaryRange}
    (h : Part.Spells w (some (.salary r))) : rangeDots <:+: w := by
  cases h with
  | salary hl hh => exact List.infix_append ..
  | operator hv => cases hv

/-- A range is open below exactly if its word starts with the dots. -/
theorem rangeDots_prefix_iff {w : Text} {r : SalaryRange} (h : Part.Spells w (some (.salary r))) :
    rangeDots <+: w ↔ r.min = none := by
  cases h with
  | @salary low high min max hl hh =>
    cases min with
    | none =>
      obtain rfl : low = [] := hl
      simp
    | some n =>
      have hdot := hl.dot_not_mem
      obtain ⟨digits, hlow, hne, -⟩ := hl
      cases low with
      | nil => simp [hne.symm] at hlow
      | cons c low =>
        have hc : '.' ≠ c := fun he => hdot (he ▸ List.mem_cons_self ..)
        simp [rangeDots, hc]
  | operator hv => cases hv

theorem exists_openBelow_iff (h : List.Forall₂ Part.Spells ws os) :
    (∃ r ∈ Part.ranges (os.filterMap id), r.min = none) ↔ ∃ w ∈ ws, rangeDots <+: w := by
  have hwords : (∃ w ∈ ws, rangeDots <+: w) ↔ ∃ w ∈ rangeWords ws, rangeDots <+: w := by
    simp only [rangeWords, List.mem_filter, decide_eq_true_eq]
    exact exists_congr fun w => ⟨fun ⟨hw, hd⟩ => ⟨⟨hw, hd.isInfix⟩, hd⟩, fun ⟨hw, hd⟩ => ⟨hw.1, hd⟩⟩
  have hr := forall₂_ranges_of_spells h
  rw [hwords]
  generalize rangeWords ws = vs, Part.ranges (os.filterMap id) = rs at hr
  induction hr with
  | nil => simp
  | cons hw hrest ih =>
    rw [List.exists_mem_cons_iff, List.exists_mem_cons_iff, rangeDots_prefix_iff hw]
    exact or_congr Iff.rfl ih

/-- The shape of a query whose words spell these parts. -/
theorem shape_of_spells {q : Text} (h : List.Forall₂ Part.Spells q.words os) :
    shape q =
      if ∃ w ∈ q.words, rangeDots <+: w then .error (.invalidInput .salary .openBelow)
      else .ok ⟨Text.unwords (textWords q.words),
        (Part.ranges (os.filterMap id)).flatMap SalaryRange.bounds,
        Shape.sitesOf (Part.canonical (os.filterMap id))⟩ := by
  have hne : [] ∉ Part.texts (os.filterMap id) := by
    rw [texts_of_spells h]
    exact fun hm => Text.ne_nil_of_mem_words (List.mem_filter.mp hm).1 rfl
  rw [shape, parse_eq_ok_iff_spells.mpr ⟨os, h, rfl⟩]
  simp only [Shape.ofParts_canonical hne, exists_openBelow_iff h, texts_of_spells h]

end Spelled

/-- A word spells at most one salary range. -/
theorem rightUnique_spells_salary :
    Relator.RightUnique fun w r => Part.Spells w (some (.salary r)) := by
  intro w r r' h h'
  have hne : w ≠ [] := by
    rintro rfl
    exact absurd (List.infix_nil.mp (rangeDots_isInfix_of_spells h)) (by decide)
  have ho := (Part.ofToken_eq_ok_iff hne).mpr h
  have ho' := (Part.ofToken_eq_ok_iff hne).mpr h'
  exact Part.salary.inj (Option.some.inj (Except.ok.inj (ho.symm.trans ho')))

/-- Words have at most one shape. -/
theorem SumsUp.unique {ws : List Text} {s s' : Shape} (h : SumsUp ws s) (h' : SumsUp ws s') :
    s = s' := by
  obtain ⟨terms, salary, sites⟩ := s
  obtain ⟨terms', salary', sites'⟩ := s'
  obtain ⟨rs, hrs, rfl⟩ := h.salary
  obtain ⟨rs', hrs', rfl⟩ := h'.salary
  obtain rfl : rs = rs' := List.right_unique_forall₂' rightUnique_spells_salary hrs hrs'
  obtain rfl : terms = terms' := h.terms.trans h'.terms.symm
  obtain rfl : sites = sites' := h.sites.unique h'.sites
  rfl

/-- A query that is accepted sums up to this shape, unless a salary range is open below. -/
theorem sumsUp_of_spells {q : Text} {os : List (Option Part)}
    (h : List.Forall₂ Part.Spells q.words os) :
    SumsUp q.words ⟨Text.unwords (textWords q.words),
      (Part.ranges (os.filterMap id)).flatMap SalaryRange.bounds,
      Shape.sitesOf (Part.canonical (os.filterMap id))⟩ :=
  ⟨rfl, ⟨_, forall₂_ranges_of_spells h, rfl⟩, sitesOf_of_spells h ▸ Shape.isSorting_sitesOf _⟩

theorem shape_eq_ok_iff {q : Text} {s : Shape} :
    shape q = .ok s ↔
      (∃ ps, parse q = .ok ps) ∧ (∀ w ∈ q.words, ¬ rangeDots <+: w) ∧ SumsUp q.words s := by
  cases hq : parse q with
  | error e => simp [shape_of_parse_eq_error hq]
  | ok ps =>
    obtain ⟨os, hos, -⟩ := parse_eq_ok_iff_spells.mp hq
    rw [shape_of_spells hos]
    split
    · next ho =>
      obtain ⟨w, hw, hd⟩ := ho
      simp only [reduceCtorEq, false_iff]
      exact fun h => h.2.1 w hw hd
    · next ho =>
      have hopen : ∀ w ∈ q.words, ¬ rangeDots <+: w := fun w hw hd => ho ⟨w, hw, hd⟩
      constructor
      · intro hs
        obtain rfl := Except.ok.inj hs
        exact ⟨⟨ps, rfl⟩, hopen, sumsUp_of_spells hos⟩
      · rintro ⟨-, -, hs⟩
        rw [(sumsUp_of_spells hos).unique hs]

theorem shape_eq_error_iff {q : Text} {e : QueryError} :
    shape q = .error e ↔ parse q = .error e ∨
      (∃ ps, parse q = .ok ps) ∧ (∃ w ∈ q.words, rangeDots <+: w) ∧
        e = .invalidInput .salary .openBelow := by
  cases hq : parse q with
  | error d => simp [shape_of_parse_eq_error hq]
  | ok ps =>
    obtain ⟨os, hos, -⟩ := parse_eq_ok_iff_spells.mp hq
    rw [shape_of_spells hos]
    split
    · next ho => simp [ho, eq_comm]
    · next ho => simp [ho]

/-- A query has no shape exactly if it is refused, with the same error, or if it is accepted with a
salary range that is open below. Any other query has one shape: its terms are its words of free text
as they stand, its salary bounds are those of its salary ranges as they stand, and its sites are
the values of its sites in the order of code points. -/
theorem shape_iff_sumsUp (q : Text) :
    (∀ e, shape q = .error e ↔ parse q = .error e ∨
      (∃ ps, parse q = .ok ps) ∧ (∃ w ∈ q.words, rangeDots <+: w) ∧
        e = .invalidInput .salary .openBelow) ∧
    ∀ s, shape q = .ok s ↔
      (∃ ps, parse q = .ok ps) ∧ (∀ w ∈ q.words, ¬ rangeDots <+: w) ∧ SumsUp q.words s :=
  ⟨fun _ => shape_eq_error_iff, fun _ => shape_eq_ok_iff⟩

end Query

end JobSearch
