import JobSearch.Calendar.Phrase
import JobSearch.Proofs.Text.Pattern

/-!
# What the patterns of dates read

A date is made of numbers, of words from small vocabularies in either case, and of marks and white
space between them. For each form, a relation says which texts spell its pieces, and its pattern
reads exactly these texts between two word boundaries.
-/

namespace JobSearch.Phrase

open Pattern

/-- Between `low` and `high` digits. -/
def IsNumber (low high : Nat) (x : Text) : Prop :=
  (low ≤ x.length ∧ x.length ≤ high) ∧ ∀ c ∈ x, CharClass.isDigit c = true

instance (low high : Nat) (x : Text) : Decidable (IsNumber low high x) :=
  decidable_of_iff ((low ≤ x.length ∧ x.length ≤ high) ∧ x.all CharClass.isDigit = true) (by
    simp only [IsNumber, List.all_eq_true])

/-- Small letters, if the case of each letter is disregarded. -/
def IsLettered (x : Text) : Prop := IsSmall (plain x)

/-- One white space character or more. -/
def IsBlanks (g : Text) : Prop := g ≠ [] ∧ ∀ c ∈ g, Text.isBlank c = true

/-- A mark or nothing. -/
def IsMark? (c : Char) (t : Text) : Prop := t = [] ∨ t = [c]

/-- The digits in front. -/
def lead (w : Text) : Text := w.takeWhile CharClass.isDigit

/-- Words in small letters that a phrase may hold; the name of a bound is not among them. -/
structure IsVocabulary (names : List Text) : Prop where
  /-- The words are in small letters. -/
  small : ∀ n ∈ names, IsSmall n
  /-- No word is empty. -/
  nil_not_mem : [] ∉ names
  /-- No word is the name of a bound. -/
  before_not_mem : "before".toList ∉ names

theorem isWord_of_isLettered {x : Text} (h : IsLettered x) : ∀ c ∈ x, CharClass.isWord c = true :=
  fun c hc => (isWord_of_plainChar (h (plainChar c) (List.mem_map_of_mem hc))).1

namespace IsVocabulary

variable {names : List Text} {x : Text}

theorem isLettered (hv : IsVocabulary names) (hx : plain x ∈ names) : IsLettered x :=
  hv.small _ hx

theorem isRun (hv : IsVocabulary names) (hx : plain x ∈ names) : Text.IsRun x := by
  refine ⟨?_, isWord_of_isLettered (hv.isLettered hx)⟩
  rintro rfl
  exact hv.nil_not_mem hx

theorem ne_before (hv : IsVocabulary names) (hx : plain x ∈ names) : "before".toList ≠ x := by
  rintro rfl
  exact hv.before_not_mem hx

end IsVocabulary

theorem lead_of_isLettered {x : Text} (h : IsLettered x) : lead x = [] := by
  cases x with
  | nil => rfl
  | cons c x =>
    have hc := (isWord_of_plainChar (h (plainChar c) (List.mem_cons_self ..))).2
    rw [lead, List.takeWhile_cons_of_neg (by simp [hc])]

/-- A word that starts with a digit is not the name of a bound. -/
theorem ne_before_of_lead {w : Text} (h : lead w ≠ []) : "before".toList ≠ w := by
  rintro rfl
  exact h (by decide +kernel)

namespace IsNumber

variable {low high : Nat} {x e : Text}

/-- The digits in front of letters are told from them. -/
theorem lead_append (hx : IsNumber low high x) (he : IsLettered e) : lead (x ++ e) = x := by
  have hnil := lead_of_isLettered he
  rw [lead] at hnil ⊢
  rw [List.takeWhile_append_of_pos hx.2, hnil, List.append_nil]

theorem lead_eq (hx : IsNumber low high x) : lead x = x := by
  have he : IsLettered [] := by
    intro l hl
    cases hl
  simpa using hx.lead_append he

theorem ne_nil (hx : IsNumber (low + 1) high x) : x ≠ [] := by
  have hl := hx.1.1
  rintro rfl
  rw [List.length_nil] at hl
  omega

/-- Digits with letters behind them are one run. -/
theorem isRun_append (hx : IsNumber (low + 1) high x) (he : IsLettered e) :
    Text.IsRun (x ++ e) := by
  refine ⟨by simp [hx.ne_nil], fun c hc => ?_⟩
  rcases List.mem_append.mp hc with hc | hc
  · exact CharClass.isWord_of_isDigit (hx.2 c hc)
  · exact isWord_of_isLettered he c hc

theorem isRun (hx : IsNumber (low + 1) high x) : Text.IsRun x :=
  ⟨hx.ne_nil, fun c hc => CharClass.isWord_of_isDigit (hx.2 c hc)⟩

theorem append_ne_before (hx : IsNumber (low + 1) high x) (he : IsLettered e) :
    "before".toList ≠ x ++ e :=
  ne_before_of_lead fun hn => hx.ne_nil ((hx.lead_append he).symm.trans hn)

theorem ne_before (hx : IsNumber (low + 1) high x) : "before".toList ≠ x :=
  ne_before_of_lead fun hn => hx.ne_nil (hx.lead_eq.symm.trans hn)

end IsNumber

theorem IsBlanks.isGap {g : Text} (h : IsBlanks g) : Text.IsGap g :=
  ⟨h.1, fun c hc => CharClass.not_isWord_of_isBlank (h.2 c hc)⟩

/-- White space with a mark in front of it is a gap. -/
theorem IsMark?.isGap_append {c : Char} {m g : Text} (hm : IsMark? c m) (hg : Text.IsGap g)
    (hc : CharClass.isWord c = false := by decide) : Text.IsGap (m ++ g) := by
  rcases hm with rfl | rfl
  · exact hg
  · exact ⟨List.cons_ne_nil _ _, List.forall_mem_cons.mpr ⟨hc, hg.2⟩⟩

theorem copies_digits (most : Nat) (h : 0 < most) : (digits most).Copies (IsNumber 1 most) :=
  copies_oneUpTo CharClass.isDigit h

theorem copies_yearDigits : yearDigits.Copies (IsNumber 4 4) :=
  (copies_exactly CharClass.isDigit 4).congr fun t =>
    and_congr_left fun _ => by rw [← Nat.le_antisymm_iff, eq_comm]

theorem covers_mark (c : Char) : (mark c).Covers (· = [c]) := by
  refine (ReadsUpTo.covers (reads_char (· == c))).congr fun t => ?_
  simp

theorem covers_mark? (c : Char) : (optional (mark c)).Covers (IsMark? c) :=
  (covers_mark c).optional

theorem covers_gap : gap.Covers IsBlanks := covers_many Text.isBlank

theorem copies_word (n : String) (h : IsSmall n.toList := by decide) :
    (word n).Copies (plain · = n.toList) := copies_letters h

theorem spells_word (n : String) (h : IsSmall n.toList := by decide) :
    (word n).Spells [n.toList] :=
  (copies_word n h).congr fun t => by rw [List.mem_singleton]

/-- The stem alone, or with one of the endings behind it. -/
theorem spells_stem (start : String) {ending : Pattern Text} {names : List Text}
    (he : ending.Spells names) (h : IsSmall start.toList := by decide) :
    (stem start ending).Spells (start.toList :: names.map (start.toList ++ ·)) := by
  refine ((copies_letters h).bind fun a => (Reads.optional he).bind fun b =>
    reads_pure (a ++ b.getD [])).congr fun x t => ?_
  simp only [List.mem_cons, List.mem_map]
  constructor
  · rintro ⟨a, r, ha, ⟨o, b, r', ho, ⟨rfl, rfl⟩, rfl⟩, rfl⟩
    cases o with
    | none =>
      obtain rfl : b = [] := ho
      refine ⟨by simp, Or.inl ?_⟩
      simpa using ha
    | some b' =>
      obtain ⟨rfl, hb⟩ : b = b' ∧ plain b' ∈ names := ho
      refine ⟨by simp, Or.inr ⟨plain b, hb, ?_⟩⟩
      rw [← ha, plain, plain, plain, ← List.map_append]
      rfl
  · rintro ⟨rfl, ha | ⟨n, hn, ha⟩⟩
    · exact ⟨t, [], ha, ⟨none, [], [], rfl, ⟨by simp, rfl⟩, rfl⟩, by simp⟩
    · obtain ⟨a, b, rfl, hpa, rfl⟩ := List.append_eq_map_iff.mp ha
      exact ⟨a, b, hpa, ⟨some b, b, [], ⟨rfl, hn⟩, ⟨rfl, rfl⟩, by simp⟩, rfl⟩

/-- The ways to write the name of a month. -/
def monthNames : List Text :=
  ["jan", "january", "feb", "february", "mar", "march", "apr", "april", "may", "jun", "june", "jul",
    "july", "aug", "august", "sep", "sept", "september", "oct", "october", "nov", "november", "dec",
    "december"].map String.toList

theorem spells_month : month.Spells monthNames :=
  (spells_stem "jan" (spells_word "uary")).oneOf_cons <|
  (spells_stem "feb" (spells_word "ruary")).oneOf_cons <|
  (spells_stem "mar" (spells_word "ch")).oneOf_cons <|
  (spells_stem "apr" (spells_word "il")).oneOf_cons <|
  (spells_word "may").oneOf_cons <|
  (spells_stem "jun" (spells_word "e")).oneOf_cons <|
  (spells_stem "jul" (spells_word "y")).oneOf_cons <|
  (spells_stem "aug" (spells_word "ust")).oneOf_cons <|
  (spells_stem "sep" (spells_stem "t" (spells_word "ember"))).oneOf_cons <|
  (spells_stem "oct" (spells_word "ober")).oneOf_cons <|
  (spells_stem "nov" (spells_word "ember")).oneOf_cons <|
  (spells_stem "dec" (spells_word "ember")).oneOf_cons spells_oneOf_nil

/-- The endings of ordinal numbers. -/
def ordinalEndings : List Text := ["st", "nd", "rd", "th"].map String.toList

theorem spells_ordinalEnding : ordinalEnding.Spells ordinalEndings :=
  (spells_word "st").oneOf_cons <| (spells_word "nd").oneOf_cons <|
  (spells_word "rd").oneOf_cons <| (spells_word "th").oneOf_cons spells_oneOf_nil

/-- The ending of an ordinal number or nothing. -/
def IsEnding? (e : Text) : Prop := e = [] ∨ plain e ∈ ordinalEndings

theorem covers_ending? : (optional ordinalEnding).Covers IsEnding? :=
  spells_ordinalEnding.covers.optional

/-- A text for a year, a month and a day in digits. -/
inductive SpellsIsoDay : Text × Text × Text → Text → Prop where
  /-- Hyphens stand between the numbers. -/
  | mk {year month day : Text} (hy : IsNumber 4 4 year) (hm : IsNumber 1 2 month)
    (hd : IsNumber 1 2 day) :
    SpellsIsoDay (year, month, day) (year ++ ['-'] ++ (month ++ ['-'] ++ day))

/-- A text for a year and a month in digits. -/
inductive SpellsYearMonth : Text × Text → Text → Prop where
  /-- A hyphen stands between the numbers. -/
  | mk {year month : Text} (hy : IsNumber 4 4 year) (hm : IsNumber 1 2 month) :
    SpellsYearMonth (year, month) (year ++ ['-'] ++ month)

/-- A text for a month name, perhaps a day, and a year. -/
inductive SpellsMonthDayYear : Text × Option Text × Text → Text → Prop where
  /-- Without a day. -/
  | noDay {name dot comma g year : Text} (hn : plain name ∈ monthNames) (hdot : IsMark? '.' dot)
    (hcomma : IsMark? ',' comma) (hg : IsBlanks g) (hy : IsNumber 4 4 year) :
    SpellsMonthDayYear (name, none, year) (name ++ (dot ++ (comma ++ g)) ++ year)
  /-- With a day. -/
  | day {name dot g day e comma g' year : Text} (hn : plain name ∈ monthNames)
    (hdot : IsMark? '.' dot) (hg : IsBlanks g) (hd : IsNumber 1 2 day) (he : IsEnding? e)
    (hcomma : IsMark? ',' comma) (hg' : IsBlanks g') (hy : IsNumber 4 4 year) :
    SpellsMonthDayYear (name, some day, year)
      (name ++ (dot ++ g) ++ (day ++ e ++ (comma ++ g') ++ year))

/-- A text for a day, a month name and a year. -/
inductive SpellsDayMonthYear : Text × Text × Text → Text → Prop where
  /-- The month name may be followed by marks. -/
  | mk {day e g name dot comma g' year : Text} (hd : IsNumber 1 2 day) (he : IsEnding? e)
    (hg : IsBlanks g) (hn : plain name ∈ monthNames) (hdot : IsMark? '.' dot)
    (hcomma : IsMark? ',' comma) (hg' : IsBlanks g') (hy : IsNumber 4 4 year) :
    SpellsDayMonthYear (day, name, year)
      (day ++ e ++ g ++ (name ++ (dot ++ (comma ++ g')) ++ year))

/-- The phrases of one word. -/
def singles : List Text := ["today", "now", "yesterday", "tomorrow"].map String.toList

/-- The words with which a phrase of two words starts. -/
def directions : List Text := ["last", "next"].map String.toList

/-- A text that counts from a reference day. -/
inductive SpellsRelative : Relative → Text → Prop where
  /-- One word. -/
  | single {w : Text} (hw : plain w ∈ singles) : SpellsRelative (.words [w]) w
  /-- The month before or the month after. -/
  | pair {a g b : Text} (ha : plain a ∈ directions) (hg : IsBlanks g)
    (hb : plain b = "month".toList) : SpellsRelative (.words [a, b]) (a ++ g ++ b)
  /-- A number of months ago. -/
  | ago {count g m g' a : Text} (hc : IsNumber 1 4 count) (hg : IsBlanks g)
    (hm : plain m ∈ ["month".toList, "months".toList]) (hg' : IsBlanks g')
    (ha : plain a = "ago".toList) : SpellsRelative (.monthsAgo count) (count ++ g ++ (m ++ g' ++ a))

theorem isoDay_reads {here there : Cursor} {p : isoDay.Pieces} :
    (p, there) ∈ isoDay.pattern.run here ↔
      here.AtBoundary ∧ there.AtBoundary ∧ ∃ t, SpellsIsoDay p t ∧ here.Passes t there := by
  have h := copies_yearDigits.bind fun y => (covers_mark '-').bind <|
    (copies_digits 2 (by decide)).bind fun m => (covers_mark '-').bind <|
    (copies_digits 2 (by decide)).bind fun d => reads_boundary_pure (y, m, d)
  refine (h.congr fun p t => ?_).boundary_bind
  constructor
  · rintro ⟨y, _, hy, ⟨_, _, rfl, ⟨m, _, hm, ⟨_, _, rfl, ⟨d, _, hd, ⟨rfl, rfl⟩, rfl⟩, rfl⟩, rfl⟩,
      rfl⟩, rfl⟩
    simpa using SpellsIsoDay.mk hy hm hd
  · rintro ⟨hy, hm, hd⟩
    exact ⟨_, _, hy, ⟨_, _, rfl, ⟨_, _, hm, ⟨_, _, rfl, ⟨_, _, hd, ⟨rfl, rfl⟩, rfl⟩, rfl⟩, rfl⟩,
      rfl⟩, by simp⟩

theorem yearMonth_reads {here there : Cursor} {p : yearMonth.Pieces} :
    (p, there) ∈ yearMonth.pattern.run here ↔
      here.AtBoundary ∧ there.AtBoundary ∧ ∃ t, SpellsYearMonth p t ∧ here.Passes t there := by
  have h := copies_yearDigits.bind fun y => (covers_mark '-').bind <|
    (copies_digits 2 (by decide)).bind fun m => reads_boundary_pure (y, m)
  refine (h.congr fun p t => ?_).boundary_bind
  constructor
  · rintro ⟨y, _, hy, ⟨_, _, rfl, ⟨m, _, hm, ⟨rfl, rfl⟩, rfl⟩, rfl⟩, rfl⟩
    simpa using SpellsYearMonth.mk hy hm
  · rintro ⟨hy, hm⟩
    exact ⟨_, _, hy, ⟨_, _, rfl, ⟨_, _, hm, ⟨rfl, rfl⟩, rfl⟩, rfl⟩, by simp⟩

theorem monthDayYear_reads {here there : Cursor} {p : monthDayYear.Pieces} :
    (p, there) ∈ monthDayYear.pattern.run here ↔
      here.AtBoundary ∧ there.AtBoundary ∧ ∃ t, SpellsMonthDayYear p t ∧ here.Passes t there := by
  have hday := covers_gap.bind <| (copies_digits 2 (by decide)).bind fun d =>
    covers_ending?.bind <| reads_pure d
  have h := spells_month.bind fun name => (covers_mark? '.').bind <|
    (Reads.optional hday).bind fun day => (covers_mark? ',').bind <| covers_gap.bind <|
    copies_yearDigits.bind fun year => reads_boundary_pure (name, day, year)
  refine (h.congr fun p t => ?_).boundary_bind
  constructor
  · rintro ⟨name, _, hn, ⟨dot, _, hdot, ⟨day, s, _, hday, ⟨comma, _, hcomma, ⟨g, _, hg,
      ⟨year, _, hy, ⟨rfl, rfl⟩, rfl⟩, rfl⟩, rfl⟩, rfl⟩, rfl⟩, rfl⟩
    cases day with
    | none =>
      obtain rfl : s = [] := hday
      simpa using SpellsMonthDayYear.noDay hn hdot hcomma hg hy
    | some day =>
      obtain ⟨g', _, hg', ⟨d, _, hd, ⟨e, _, he, ⟨rfl, rfl⟩, rfl⟩, rfl⟩, rfl⟩ := hday
      simpa using SpellsMonthDayYear.day hn hdot hg' hd he hcomma hg hy
  · rintro (⟨hn, hdot, hcomma, hg, hy⟩ | ⟨hn, hdot, hg, hd, he, hcomma, hg', hy⟩)
    · exact ⟨_, _, hn, ⟨_, _, hdot, ⟨none, [], _, rfl, ⟨_, _, hcomma, ⟨_, _, hg, ⟨_, _, hy,
        ⟨rfl, rfl⟩, rfl⟩, rfl⟩, rfl⟩, rfl⟩, rfl⟩, by simp⟩
    · exact ⟨_, _, hn, ⟨_, _, hdot, ⟨some _, _, _, ⟨_, _, hg, ⟨_, _, hd, ⟨_, _, he, ⟨rfl, rfl⟩,
        rfl⟩, rfl⟩, rfl⟩, ⟨_, _, hcomma, ⟨_, _, hg', ⟨_, _, hy, ⟨rfl, rfl⟩, rfl⟩, rfl⟩, rfl⟩, rfl⟩,
        rfl⟩, by simp⟩

theorem dayMonthYear_reads {here there : Cursor} {p : dayMonthYear.Pieces} :
    (p, there) ∈ dayMonthYear.pattern.run here ↔
      here.AtBoundary ∧ there.AtBoundary ∧ ∃ t, SpellsDayMonthYear p t ∧ here.Passes t there := by
  have h := (copies_digits 2 (by decide)).bind fun day => covers_ending?.bind <|
    covers_gap.bind <| spells_month.bind fun name => (covers_mark? '.').bind <|
    (covers_mark? ',').bind <| covers_gap.bind <| copies_yearDigits.bind fun year =>
    reads_boundary_pure (day, name, year)
  refine (h.congr fun p t => ?_).boundary_bind
  constructor
  · rintro ⟨day, _, hd, ⟨e, _, he, ⟨g, _, hg, ⟨name, _, hn, ⟨dot, _, hdot, ⟨comma, _, hcomma,
      ⟨g', _, hg', ⟨year, _, hy, ⟨rfl, rfl⟩, rfl⟩, rfl⟩, rfl⟩, rfl⟩, rfl⟩, rfl⟩, rfl⟩, rfl⟩
    simpa using SpellsDayMonthYear.mk hd he hg hn hdot hcomma hg' hy
  · rintro ⟨hd, he, hg, hn, hdot, hcomma, hg', hy⟩
    exact ⟨_, _, hd, ⟨_, _, he, ⟨_, _, hg, ⟨_, _, hn, ⟨_, _, hdot, ⟨_, _, hcomma, ⟨_, _, hg',
      ⟨_, _, hy, ⟨rfl, rfl⟩, rfl⟩, rfl⟩, rfl⟩, rfl⟩, rfl⟩, rfl⟩, rfl⟩, by simp⟩

theorem reads_oneWord (n : String) (h : IsSmall n.toList := by decide) :
    (oneWord n).Reads fun p t => p = .words [t] ∧ plain t = n.toList :=
  ((copies_word n h).bind fun w => reads_pure (Relative.words [w])).congr fun p t => by
    constructor
    · rintro ⟨w, _, hw, ⟨rfl, rfl⟩, rfl⟩
      simpa using hw
    · rintro ⟨rfl, hw⟩
      exact ⟨_, _, hw, ⟨rfl, rfl⟩, by simp⟩

theorem reads_twoWords (m n : String) (hm : IsSmall m.toList := by decide)
    (hn : IsSmall n.toList := by decide) :
    (twoWords m n).Reads fun p t => ∃ a g b, p = .words [a, b] ∧ t = a ++ g ++ b ∧
      plain a = m.toList ∧ IsBlanks g ∧ plain b = n.toList :=
  ((copies_word m hm).bind fun a => covers_gap.bind <| (copies_word n hn).bind fun b =>
    reads_pure (Relative.words [a, b])).congr fun p t => by
    constructor
    · rintro ⟨a, _, ha, ⟨g, _, hg, ⟨b, _, hb, ⟨rfl, rfl⟩, rfl⟩, rfl⟩, rfl⟩
      exact ⟨a, g, b, rfl, by simp, ha, hg, hb⟩
    · rintro ⟨a, g, b, rfl, rfl, ha, hg, hb⟩
      exact ⟨_, _, ha, ⟨_, _, hg, ⟨_, _, hb, ⟨rfl, rfl⟩, rfl⟩, rfl⟩, by simp⟩

theorem reads_monthsAgo :
    monthsAgo.Reads fun p t => ∃ count g m g' a, p = .monthsAgo count ∧
      t = count ++ g ++ (m ++ g' ++ a) ∧ IsNumber 1 4 count ∧ IsBlanks g ∧
      plain m ∈ ["month".toList, "months".toList] ∧ IsBlanks g' ∧ plain a = "ago".toList :=
  ((copies_digits 4 (by decide)).bind fun count => covers_gap.bind <|
    (spells_stem "month" (spells_word "s")).covers.bind <|
    covers_gap.bind <| (copies_word "ago").covers.bind <|
    reads_pure (Relative.monthsAgo count)).congr fun p t => by
    constructor
    · rintro ⟨count, _, hc, ⟨g, _, hg, ⟨m, _, hm, ⟨g', _, hg', ⟨a, _, ha, ⟨rfl, rfl⟩, rfl⟩, rfl⟩,
        rfl⟩, rfl⟩, rfl⟩
      exact ⟨count, g, m, g', a, rfl, by simp, hc, hg, hm, hg', ha⟩
    · rintro ⟨count, g, m, g', a, rfl, rfl, hc, hg, hm, hg', ha⟩
      exact ⟨_, _, hc, ⟨_, _, hg, ⟨_, _, hm, ⟨_, _, hg', ⟨_, _, ha, ⟨rfl, rfl⟩, rfl⟩, rfl⟩,
        rfl⟩, rfl⟩, by simp⟩

theorem relative_reads {here there : Cursor} {p : relative.Pieces} :
    (p, there) ∈ relative.pattern.run here ↔
      here.AtBoundary ∧ there.AtBoundary ∧ ∃ t, SpellsRelative p t ∧ here.Passes t there := by
  have h := (reads_oneWord "today").oneOf_cons <| (reads_oneWord "now").oneOf_cons <|
    (reads_oneWord "yesterday").oneOf_cons <| (reads_oneWord "tomorrow").oneOf_cons <|
    (reads_twoWords "last" "month").oneOf_cons <| (reads_twoWords "next" "month").oneOf_cons <|
    reads_monthsAgo.oneOf_cons reads_oneOf_nil
  refine ((h.bind fun p => reads_boundary_pure p).congr fun p t => ?_).boundary_bind
  constructor
  · rintro ⟨p, s, _, hp, ⟨rfl, rfl⟩, rfl⟩
    rw [List.append_nil]
    rcases hp with ⟨rfl, hw⟩ | ⟨rfl, hw⟩ | ⟨rfl, hw⟩ | ⟨rfl, hw⟩ | ⟨a, g, b, rfl, rfl, ha, hg, hb⟩ |
      ⟨a, g, b, rfl, rfl, ha, hg, hb⟩ | ⟨count, g, m, g', a, rfl, rfl, hc, hg, hm, hg', ha⟩ | hp
    · exact .single (by simp [singles, hw])
    · exact .single (by simp [singles, hw])
    · exact .single (by simp [singles, hw])
    · exact .single (by simp [singles, hw])
    · exact .pair (by simp [directions, ha]) hg hb
    · exact .pair (by simp [directions, ha]) hg hb
    · exact .ago hc hg hm hg' ha
    · exact hp.elim
  · intro hp
    refine ⟨p, t, [], ?_, ⟨rfl, rfl⟩, (List.append_nil t).symm⟩
    cases hp with
    | single hw =>
      simp only [singles, List.map_cons, List.map_nil, List.mem_cons, List.not_mem_nil,
        or_false] at hw
      rcases hw with hw | hw | hw | hw
      · exact Or.inl ⟨rfl, hw⟩
      · exact Or.inr (Or.inl ⟨rfl, hw⟩)
      · exact Or.inr (Or.inr (Or.inl ⟨rfl, hw⟩))
      · exact Or.inr (Or.inr (Or.inr (Or.inl ⟨rfl, hw⟩)))
    | pair ha hg hb =>
      simp only [directions, List.map_cons, List.map_nil, List.mem_cons, List.not_mem_nil,
        or_false] at ha
      refine Or.inr (Or.inr (Or.inr (Or.inr ?_)))
      rcases ha with ha | ha
      · exact Or.inl ⟨_, _, _, rfl, rfl, ha, hg, hb⟩
      · exact Or.inr (Or.inl ⟨_, _, _, rfl, rfl, ha, hg, hb⟩)
    | ago hc hg hm hg' ha =>
      refine Or.inr (Or.inr (Or.inr (Or.inr (Or.inr (Or.inr (Or.inl ?_))))))
      exact ⟨_, _, _, _, _, rfl, rfl, hc, hg, hm, hg', ha⟩

end JobSearch.Phrase
