import JobSearch.Proofs.Calendar.Phrase

/-!
# The grammar of dates

Each way to write a day is a few words with gaps between them. The first word differs from all
others in how it starts, so no phrase starts inside another of its form, and the words tell what the
pieces are, so all matches at one place agree.
-/

namespace JobSearch.Phrase

open Pattern

/-- A text of words of which the first alone may start a text of its form, and none is the name of
a bound. The words tell what the text spells, whatever follows. -/
structure IsPhrase {α : Type} (opens : Text → Prop) (told : List Text → α) (p : α) (t w : Text)
    (ws : List Text) : Prop where
  /-- These are the words. -/
  spaced : Text.Spaced (w :: ws) t
  /-- The first word may start a text of the form. -/
  head : opens w
  /-- No other word may. -/
  inner : ∀ v ∈ ws, ¬ opens v
  /-- No word is the name of a bound. -/
  before_not_mem : "before".toList ∉ w :: ws
  /-- The words tell what the text spells. -/
  told_eq : ∀ more, told (w :: ws ++ more) = p

/-- How the texts of a form are made. -/
structure Form.Grammar (form : Form) where
  /-- The text spells the pieces. -/
  spells : form.Pieces → Text → Prop
  /-- The word may start a text of the form. -/
  opens : Text → Prop
  /-- The pieces that words tell. -/
  told : List Text → form.Pieces
  /-- The pattern reads such a text between two boundaries. -/
  mem_run_iff {here there : Cursor} {p : form.Pieces} : (p, there) ∈ form.pattern.run here ↔
    here.AtBoundary ∧ there.AtBoundary ∧ ∃ t, spells p t ∧ here.Passes t there
  /-- Such a text is made of words. -/
  words {p : form.Pieces} {t : Text} : spells p t → ∃ w ws, IsPhrase opens told p t w ws

/-- The words inside a phrase that counts from a reference day. -/
def units : List Text := ["month", "months", "ago"].map String.toList

theorem isVocabulary_monthNames : IsVocabulary monthNames := ⟨by decide, by decide, by decide⟩

theorem isVocabulary_ordinalEndings : IsVocabulary ordinalEndings :=
  ⟨by decide, by decide, by decide⟩

theorem isVocabulary_singles : IsVocabulary singles := ⟨by decide, by decide, by decide⟩

theorem isVocabulary_directions : IsVocabulary directions := ⟨by decide, by decide, by decide⟩

theorem isVocabulary_units : IsVocabulary units := ⟨by decide, by decide, by decide⟩

theorem IsEnding?.isLettered {e : Text} (h : IsEnding? e) : IsLettered e := by
  rcases h with rfl | h
  · intro l hl
    cases hl
  · exact isVocabulary_ordinalEndings.isLettered h

theorem lead_of_mem_monthNames {x : Text} (h : plain x ∈ monthNames) : lead x = [] :=
  lead_of_isLettered (isVocabulary_monthNames.isLettered h)

/-- A gap of one hyphen. -/
theorem isGap_hyphen : Text.IsGap ['-'] := by decide

/-- The grammar of year, month and day. -/
def isoDayGrammar : Form.Grammar isoDay where
  spells := SpellsIsoDay
  opens w := (lead w).length = 4
  told
    | y :: m :: d :: _ => (y, m, d)
    | _ => ([], [], [])
  mem_run_iff := isoDay_reads
  words := by
    rintro p t ⟨hy, hm, hd⟩
    refine ⟨_, _, .cons hy.isRun isGap_hyphen (.cons hm.isRun isGap_hyphen (.single hd.isRun)),
      ?_, ?_, ?_, fun more => rfl⟩
    · have hl := hy.1
      rw [hy.lead_eq]
      omega
    · have hlm := hm.1
      have hld := hd.1
      simp only [List.forall_mem_cons, hm.lead_eq, hd.lead_eq]
      exact ⟨by omega, by omega, by simp⟩
    · simp only [List.mem_cons, not_or]
      exact ⟨hy.ne_before, hm.ne_before, hd.ne_before, by simp⟩

/-- The grammar of year and month. -/
def yearMonthGrammar : Form.Grammar yearMonth where
  spells := SpellsYearMonth
  opens w := (lead w).length = 4
  told
    | y :: m :: _ => (y, m)
    | _ => ([], [])
  mem_run_iff := yearMonth_reads
  words := by
    rintro p t ⟨hy, hm⟩
    refine ⟨_, _, .cons hy.isRun isGap_hyphen (.single hm.isRun), ?_, ?_, ?_, fun more => rfl⟩
    · have hl := hy.1
      rw [hy.lead_eq]
      omega
    · have hlm := hm.1
      simp only [List.forall_mem_cons, hm.lead_eq]
      exact ⟨by omega, by simp⟩
    · simp only [List.mem_cons, not_or]
      exact ⟨hy.ne_before, hm.ne_before, by simp⟩

/-- What the words of a text tell that starts with a month name. -/
def monthDayYearOf : List Text → Text × Option Text × Text
  | name :: w :: more =>
    if (lead w).length = 4 then (name, none, w) else (name, some (lead w), more.headD [])
  | _ => ([], none, [])

/-- The grammar of a month name, perhaps a day, and a year. -/
def monthDayYearGrammar : Form.Grammar monthDayYear where
  spells := SpellsMonthDayYear
  opens w := lead w = []
  told := monthDayYearOf
  mem_run_iff := monthDayYear_reads
  words := by
    rintro p t (⟨hn, hdot, hcomma, hg, hy⟩ | ⟨hn, hdot, hg, hd, he, hcomma, hg', hy⟩)
    · have hgap := hdot.isGap_append (hcomma.isGap_append hg.isGap)
      have hly := hy.1
      refine ⟨_, _, .cons (isVocabulary_monthNames.isRun hn) hgap (.single hy.isRun),
        lead_of_mem_monthNames hn, ?_, ?_, fun more => if_pos ?_⟩
      · simp only [List.forall_mem_cons, hy.lead_eq]
        exact ⟨hy.ne_nil, by simp⟩
      · simp only [List.mem_cons, not_or]
        exact ⟨isVocabulary_monthNames.ne_before hn, hy.ne_before, by simp⟩
      · rw [hy.lead_eq]
        omega
    · have hgap := hdot.isGap_append hg.isGap
      have hgap' := hcomma.isGap_append hg'.isGap
      have hlead := hd.lead_append he.isLettered
      have hld := hd.1
      refine ⟨_, _, .cons (isVocabulary_monthNames.isRun hn) hgap (.cons
        (hd.isRun_append he.isLettered) hgap' (.single hy.isRun)),
        lead_of_mem_monthNames hn, ?_, ?_, fun more => ?_⟩
      · simp only [List.forall_mem_cons, hlead, hy.lead_eq]
        exact ⟨hd.ne_nil, hy.ne_nil, by simp⟩
      · simp only [List.mem_cons, not_or]
        exact ⟨isVocabulary_monthNames.ne_before hn, hd.append_ne_before he.isLettered,
          hy.ne_before, by simp⟩
      · simp only [List.cons_append, monthDayYearOf, hlead]
        exact if_neg (by omega)

/-- What the words of a text tell that starts with a day. -/
def dayMonthYearOf : List Text → Text × Text × Text
  | w :: name :: y :: _ => (lead w, name, y)
  | _ => ([], [], [])

/-- The grammar of a day, a month name and a year. -/
def dayMonthYearGrammar : Form.Grammar dayMonthYear where
  spells := SpellsDayMonthYear
  opens w := lead w ≠ [] ∧ (lead w).length ≤ 2
  told := dayMonthYearOf
  mem_run_iff := dayMonthYear_reads
  words := by
    rintro p t ⟨hd, he, hg, hn, hdot, hcomma, hg', hy⟩
    have hgap := hdot.isGap_append (hcomma.isGap_append hg'.isGap)
    have hlead := hd.lead_append he.isLettered
    have hly := hy.1
    refine ⟨_, _, .cons (hd.isRun_append he.isLettered) hg.isGap (.cons
      (isVocabulary_monthNames.isRun hn) hgap (.single hy.isRun)), ?_, ?_, ?_,
      fun more => congrArg (fun day => (day, _, _)) hlead⟩
    · rw [hlead]
      exact ⟨hd.ne_nil, hd.1.2⟩
    · simp only [List.forall_mem_cons, hy.lead_eq, lead_of_mem_monthNames hn]
      exact ⟨by simp, by omega, by simp⟩
    · simp only [List.mem_cons, not_or]
      exact ⟨hd.append_ne_before he.isLettered, isVocabulary_monthNames.ne_before hn,
        hy.ne_before, by simp⟩

/-- What the words of a text tell that counts from a reference day. -/
def relativeOf : List Text → Relative
  | w :: more =>
    if lead w = [] then
      if directions.contains (plain w) then .words [w, more.headD []] else .words [w]
    else .monthsAgo w
  | [] => .words []

theorem relativeOf_single {w : Text} (hw : IsLettered w) (hd : plain w ∉ directions)
    (more : List Text) : relativeOf (w :: more) = .words [w] := by
  rw [relativeOf, if_pos (lead_of_isLettered hw), if_neg (mt List.contains_iff_mem.mp hd)]

theorem relativeOf_pair {w : Text} (hw : IsLettered w) (hd : plain w ∈ directions) (v : Text)
    (more : List Text) : relativeOf (w :: v :: more) = .words [w, v] := by
  rw [relativeOf, if_pos (lead_of_isLettered hw), if_pos (List.contains_iff_mem.mpr hd),
    List.headD_cons]

theorem not_mem_units_of_number {low high : Nat} {x : Text} (hx : IsNumber (low + 1) high x) :
    plain x ∉ units := by
  intro hu
  have he : lead x = [] := lead_of_isLettered (isVocabulary_units.isLettered hu)
  exact hx.ne_nil (hx.lead_eq.symm.trans he)

/-- The grammar of a phrase that counts from a reference day. -/
def relativeGrammar : Form.Grammar relative where
  spells := SpellsRelative
  opens w := plain w ∉ units
  told := relativeOf
  mem_run_iff := relative_reads
  words := by
    intro p t hp
    cases hp with
    | single hw =>
      have hn : plain t ∉ units ∧ plain t ∉ directions := by
        have hall : ∀ n ∈ singles, n ∉ units ∧ n ∉ directions := by decide
        exact hall _ hw
      refine ⟨_, _, .single (isVocabulary_singles.isRun hw), hn.1, by simp, ?_, fun more => ?_⟩
      · rw [List.mem_singleton]
        exact isVocabulary_singles.ne_before hw
      · exact relativeOf_single (isVocabulary_singles.isLettered hw) hn.2 more
    | @pair a g b ha hg hb =>
      have hb : plain b ∈ units := hb ▸ (by decide : "month".toList ∈ units)
      refine ⟨_, _, .cons (isVocabulary_directions.isRun ha) hg.isGap
        (.single (isVocabulary_units.isRun hb)), ?_, ?_, ?_, fun more => ?_⟩
      · have hall : ∀ n ∈ directions, n ∉ units := by decide
        exact hall _ ha
      · simpa using hb
      · simp only [List.mem_cons, not_or]
        exact ⟨isVocabulary_directions.ne_before ha, isVocabulary_units.ne_before hb, by simp⟩
      · exact relativeOf_pair (isVocabulary_directions.isLettered ha) ha b more
    | @ago count g m g' a hc hg hm hg' ha =>
      have hm : plain m ∈ units := by
        have hall : ∀ n ∈ ["month".toList, "months".toList], n ∈ units := by decide
        exact hall _ hm
      have ha : plain a ∈ units := ha ▸ (by decide : "ago".toList ∈ units)
      refine ⟨_, _, .cons hc.isRun hg.isGap (.cons (isVocabulary_units.isRun hm) hg'.isGap
        (.single (isVocabulary_units.isRun ha))), ?_, ?_, ?_, fun more => ?_⟩
      · exact not_mem_units_of_number hc
      · simp [hm, ha]
      · simp only [List.mem_cons, not_or]
        exact ⟨hc.ne_before, isVocabulary_units.ne_before hm, isVocabulary_units.ne_before ha,
          by simp⟩
      · exact if_neg fun he => hc.ne_nil (hc.lead_eq.symm.trans he)

/-- Every way to write a day has a grammar. -/
theorem exists_grammar {form : Form} (h : form ∈ forms) : Nonempty form.Grammar := by
  simp only [forms, List.mem_cons, List.not_mem_nil, or_false] at h
  rcases h with rfl | rfl | rfl | rfl | rfl
  · exact ⟨isoDayGrammar⟩
  · exact ⟨yearMonthGrammar⟩
  · exact ⟨monthDayYearGrammar⟩
  · exact ⟨dayMonthYearGrammar⟩
  · exact ⟨relativeGrammar⟩

namespace Form.Grammar

variable {form : Form} {here there : Cursor} {p : form.Pieces}

/-- What the form spells is matched between places where no word goes on. -/
theorem mem_run_of_spells (g : form.Grammar) {t rest : Text} (hp : g.spells p t)
    (hbefore : (here.before.map CharClass.isWord).getD false = false)
    (hafter : here.after = t ++ rest) (hrest : Text.startsWord rest = false) :
    (p, ⟨t.getLast?.or here.before, rest⟩) ∈ form.pattern.run here := by
  obtain ⟨w, ws, hw⟩ := g.words hp
  have hpass : here.Passes t ⟨t.getLast?.or here.before, rest⟩ := ⟨hafter, rfl⟩
  refine g.mem_run_iff.mpr ⟨?_, ?_, t, hp, hpass⟩
  · rw [Cursor.AtBoundary, hbefore, hafter, Text.startsWord_append hw.spaced.ne_nil,
      hw.spaced.startsWord]
    decide
  · rw [hpass.atBoundary_iff hw.spaced.ne_nil, hw.spaced.endsWord, hrest]
    decide

/-- A match reads a phrase, and no word goes on behind it. -/
theorem exists_of_mem (g : form.Grammar) (h : (p, there) ∈ form.pattern.run here) :
    ∃ t w ws, here.Passes t there ∧ IsPhrase g.opens g.told p t w ws ∧
      Text.startsWord there.after = false := by
  obtain ⟨-, hb, t, hp, ht⟩ := g.mem_run_iff.mp h
  obtain ⟨w, ws, hw⟩ := g.words hp
  have hne := (ht.atBoundary_iff hw.spaced.ne_nil).mp hb
  rw [hw.spaced.endsWord] at hne
  exact ⟨t, w, ws, ht, hw, Bool.eq_false_iff.mpr hne.symm⟩

/-- The words in front of a place start with those of a match there. -/
theorem exists_runs_of_mem (g : form.Grammar) (h : (p, there) ∈ form.pattern.run here) :
    ∃ w ws, g.opens w ∧ (∀ more, g.told (w :: ws ++ more) = p) ∧
      Text.runs here.after = w :: ws ++ Text.runs there.after := by
  obtain ⟨t, w, ws, ht, hw, hsw⟩ := g.exists_of_mem h
  refine ⟨w, ws, hw.head, hw.told_eq, ?_⟩
  rw [ht.1, Text.runs_append hsw, hw.spaced.runs_eq]

/-- The first word in front of a match may start a text of the form. -/
theorem opens_of_runs_eq (g : form.Grammar) (h : (p, there) ∈ form.pattern.run here) {w : Text}
    {ws : List Text} (hruns : Text.runs here.after = w :: ws) : g.opens w := by
  obtain ⟨v, vs, hv, -, hv'⟩ := g.exists_runs_of_mem h
  rwa [(List.cons.inj (hruns.symm.trans hv')).1]

/-- The words in front of a place tell what a match there reads. -/
theorem told_runs (g : form.Grammar) (h : (p, there) ∈ form.pattern.run here) :
    g.told (Text.runs here.after) = p := by
  obtain ⟨w, ws, -, htold, hruns⟩ := g.exists_runs_of_mem h
  rw [hruns]
  exact htold _

/-- What the words in front of a match tell is spelled by a text. -/
theorem exists_spells_told_runs (g : form.Grammar) (h : (p, there) ∈ form.pattern.run here) :
    ∃ t, g.spells (g.told (Text.runs here.after)) t := by
  obtain ⟨-, -, t, ht, -⟩ := g.mem_run_iff.mp h
  rw [g.told_runs h]
  exact ⟨t, ht⟩

/-- A match starts where a word starts. -/
theorem startsWord_of_mem (g : form.Grammar) (h : (p, there) ∈ form.pattern.run here) :
    Text.startsWord here.after = true := by
  obtain ⟨t, w, ws, ht, hw, -⟩ := g.exists_of_mem h
  rw [ht.1, Text.startsWord_append hw.spaced.ne_nil, hw.spaced.startsWord]

/-- No word goes on in front of a match. -/
theorem before_of_mem (g : form.Grammar) (h : (p, there) ∈ form.pattern.run here) :
    (here.before.map CharClass.isWord).getD false = false := by
  have hb := (g.mem_run_iff.mp h).1
  rw [Cursor.AtBoundary, g.startsWord_of_mem h] at hb
  exact Bool.eq_false_iff.mpr hb

/-- What is matched at one place is matched wherever it stands and no word goes on next to it. -/
theorem mem_run_of_passes (g : form.Grammar) (h : (p, there) ∈ form.pattern.run here)
    {here' : Cursor} {t rest : Text} (ht : here.Passes t there)
    (hbefore : (here'.before.map CharClass.isWord).getD false = false)
    (hafter : here'.after = t ++ rest) (hrest : Text.startsWord rest = false) :
    (p, ⟨t.getLast?.or here'.before, rest⟩) ∈ form.pattern.run here' := by
  obtain ⟨-, -, s, hp, hs⟩ := g.mem_run_iff.mp h
  obtain rfl : s = t := List.append_cancel_right (hs.1.symm.trans ht.1)
  exact g.mem_run_of_spells hp hbefore hafter hrest

/-- Nothing matches at the end of a text. -/
theorem run_nil (g : form.Grammar) (b : Option Char) : form.pattern.run ⟨b, []⟩ = [] := by
  rw [List.eq_nil_iff_forall_not_mem]
  rintro ⟨p, there⟩ h
  cases g.startsWord_of_mem h

/-- No match starts inside another. -/
theorem run_move_eq_nil (g : form.Grammar) (h : (p, there) ∈ form.pattern.run here) {n : Nat}
    (hn : 0 < n) (hlt : n < here.after.length - there.after.length) :
    form.pattern.run (here.move n) = [] := by
  rw [List.eq_nil_iff_forall_not_mem]
  rintro ⟨p', there'⟩ h'
  obtain ⟨t, w, ws, ht, hw, hsw⟩ := g.exists_of_mem h
  obtain ⟨w', ws', hw', -, hruns'⟩ := g.exists_runs_of_mem h'
  -- The place cuts the outer match into a part that it passed and a part in front of it.
  have hlen : n < t.length := by
    have := congrArg List.length ht.1
    rw [List.length_append] at this
    omega
  have hcut : t.take n ++ t.drop n = t := List.take_append_drop n t
  obtain ⟨hpass, hrest⟩ := Cursor.Passes.move (hcut.symm ▸ ht)
  rw [List.length_take_of_le (Nat.le_of_lt hlen)] at hpass hrest
  have hne : t.take n ≠ [] := by simp [hw.spaced.ne_nil, Nat.ne_of_gt hn]
  have hstart : Text.startsWord (t.drop n) = true := by
    have hne' : t.drop n ≠ [] := by simp [hlen]
    rw [← Text.startsWord_append hne' there.after, ← hrest.1]
    exact g.startsWord_of_mem h'
  have hend : Text.endsWord (t.take n) = false := by
    have hb := (hpass.atBoundary_iff hne).mp (g.mem_run_iff.mp h').1
    rw [g.startsWord_of_mem h'] at hb
    exact Bool.eq_false_iff.mpr hb
  have hfirst : Text.startsWord (t.take n) = true := by
    rw [← Text.startsWord_append hne (t.drop n), hcut, hw.spaced.startsWord]
  -- So the first word of the inner match is a word of the outer one other than its first.
  have hmem : w' ∈ Text.runs (t.drop n) := Text.mem_runs_of_append hstart hsw (hrest.1 ▸ hruns')
  have hws : w :: ws = Text.runs (t.take n) ++ Text.runs (t.drop n) := by
    rw [← Text.runs_append_of_not_endsWord hend, hcut, hw.spaced.runs_eq]
  obtain ⟨v, vs, hv⟩ := List.exists_cons_of_ne_nil (Text.runs_ne_nil hfirst)
  rw [hv, List.cons_append, List.cons.injEq] at hws
  exact hw.inner w' (hws.2 ▸ List.mem_append_right vs hmem) hw'

end Form.Grammar

end JobSearch.Phrase
