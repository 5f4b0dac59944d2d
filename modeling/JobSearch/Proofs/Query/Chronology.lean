import JobSearch.Proofs.Calendar.Absolute
import JobSearch.Proofs.Calendar.Bound
import JobSearch.Proofs.Calendar.Chronology
import JobSearch.Proofs.Query.Canonical
import JobSearch.Proofs.Query.Content
import JobSearch.Proofs.Query.Sweep

/-!
# Date bounds in time

The canonical order knows no dates: it compares the values of date bounds as texts. For years of
four digits this is the order of time, so the bounds among the parts of a query come back in time
order. The token of such a bound is a text that names its month, from every reference day.
-/

namespace JobSearch

open Phrase Pattern Query

namespace Phrase.Form

variable {form : Form}

/-- No word goes on in front of a match. -/
theorem endsWord_take_of_matchesAt (g : form.Grammar) {t : Text} {place : Nat}
    (h : form.MatchesAt t place) : Text.endsWord (t.take place) = false := by
  obtain ⟨p, there, hp⟩ := h
  rw [Cursor.move_eq] at hp
  exact g.before_of_mem hp

/-- No match starts inside a word. -/
theorem not_matchesAt_of_isWord (g : form.Grammar) {w rest : Text}
    (hw : ∀ c ∈ w, CharClass.isWord c = true) {place : Nat} (hpos : 0 < place)
    (hle : place ≤ w.length) : ¬ form.MatchesAt (w ++ rest) place := by
  intro h
  have hrun : Text.IsRun (w.take place) := by
    refine ⟨fun hnil => ?_, fun c hc => hw c (List.mem_of_mem_take hc)⟩
    have hlen := congrArg List.length hnil
    rw [List.length_take_of_le hle, List.length_nil] at hlen
    omega
  have hend := endsWord_take_of_matchesAt g h
  rw [List.take_append_of_le_length hle, (Text.Spaced.single hrun).endsWord] at hend
  cases hend

end Phrase.Form

namespace Recognizer

variable {k : PartKind} {rest : Text}

theorem isRun_name (hk : k = .after ∨ k = .before) : Text.IsRun k.name := by
  rcases hk with rfl | rfl <;> decide

/-- The name of a bound is the first word of its token. -/
theorem runs_operatorStart (hk : k = .after ∨ k = .before) :
    Text.runs (operatorStart k.name ++ rest) = k.name :: Text.runs rest := by
  rw [operatorStart, List.append_assoc, List.singleton_append, Text.runs_append_cons (by decide),
    Text.runs_of_isRun (isRun_name hk)]
  rfl

/-- A phrase that starts with a month name tells it. -/
theorem plain_monthDayYearOf_mem {ws : List Text} {t : Text}
    (h : SpellsMonthDayYear (monthDayYearOf ws) t) : plain (ws.headD []) ∈ monthNames := by
  have hname {p : Text × Option Text × Text} (hp : SpellsMonthDayYear p t) :
      plain p.1 ∈ monthNames := by
    cases hp with
    | noDay hn => exact hn
    | day hn => exact hn
  have hmem := hname h
  match ws with
  | [] => exact hmem
  | [w] => exact (isVocabulary_monthNames.nil_not_mem hmem).elim
  | w :: v :: more =>
    rw [monthDayYearOf] at hmem
    split at hmem
    · exact hmem
    · exact hmem

/-- No phrase starts with the name of a bound. -/
theorem not_matchesAt_operatorStart (hk : k = .after ∨ k = .before) {form : Form}
    (hform : form ∈ forms) : ¬ form.MatchesAt (operatorStart k.name ++ rest) 0 := by
  rintro ⟨p, there, hp⟩
  have hlead : lead k.name = [] := by rcases hk with rfl | rfl <;> decide
  -- The name would be the first word of the phrase.
  have hruns : Text.runs (Cursor.move ⟨none, operatorStart k.name ++ rest⟩ 0).after =
      k.name :: Text.runs rest := runs_operatorStart hk
  have hopens (g : form.Grammar) : g.opens k.name := g.opens_of_runs_eq hp hruns
  have hspells (g : form.Grammar) : ∃ t, g.spells (g.told (k.name :: Text.runs rest)) t :=
    hruns ▸ g.exists_spells_told_runs hp
  simp only [forms, List.mem_cons, List.not_mem_nil, or_false] at hform
  rcases hform with rfl | rfl | rfl | rfl | rfl
  · have hlen : (lead k.name).length = 4 := hopens isoDayGrammar
    rw [hlead] at hlen
    cases hlen
  · have hlen : (lead k.name).length = 4 := hopens yearMonthGrammar
    rw [hlead] at hlen
    cases hlen
  · obtain ⟨t, ht⟩ := hspells monthDayYearGrammar
    have hname : plain k.name ∈ monthNames := plain_monthDayYearOf_mem ht
    rcases hk with rfl | rfl
    · exact absurd hname (by decide)
    · exact absurd hname (by decide)
  · exact (hopens dayMonthYearGrammar).1 hlead
  · obtain ⟨t, ht⟩ := hspells relativeGrammar
    have hlettered : IsLettered k.name := by
      rcases hk with rfl | rfl
      · exact (by decide : IsSmall (plain PartKind.after.name))
      · exact (by decide : IsSmall (plain PartKind.before.name))
    have hother : plain k.name ∉ directions ∧ plain k.name ∉ singles := by
      rcases hk with rfl | rfl <;> decide
    have htold : relativeGrammar.told (k.name :: Text.runs rest) = .words [k.name] :=
      relativeOf_single hlettered hother.1 _
    rw [htold] at ht
    cases ht with
    | single hw => exact hother.2 hw

/-- A bound whose year needs no sign names the first day of its month, from every reference day. -/
theorem recognize_boundToken (hk : k = .after ∨ k = .before) {b : Date} (hd : b.day = 1)
    (hy : 0 ≤ b.year ∧ b.year ≤ 9999) (reference : Date) :
    recognize (boundToken k b) reference = some b := by
  have hend : Text.endsWord (operatorStart k.name) = false :=
    (Text.endsWord_append (by simp) _).trans (by decide)
  have hnames : Names isoDay reference (operatorStart k.name ++ (operatorDate b ++ []))
      (operatorStart k.name).length b := names_operatorDate hd hy hend rfl
  rw [List.append_nil] at hnames
  refine recognize_eq_of_names (n := 0) rfl hnames (fun form hform place d h => ?_)
    fun m hm => absurd hm m.not_lt_zero
  obtain ⟨g⟩ := exists_grammar hform
  have hmatch : form.MatchesAt (operatorStart k.name ++ operatorDate b) place :=
    matchesAt_of_names h
  have hpos : 0 < place := by
    refine Nat.pos_of_ne_zero ?_
    rintro rfl
    exact not_matchesAt_operatorStart hk hform hmatch
  have hout : ¬ place ≤ k.name.length := by
    intro hle
    rw [operatorStart, List.append_assoc] at hmatch
    exact Form.not_matchesAt_of_isWord g (isRun_name hk).2 hpos hle hmatch
  rw [operatorStart, List.length_append, List.length_singleton]
  omega

end Recognizer

namespace Part

/-- The part bounds dates on one side, by the month of the day. -/
def IsBoundAt (p : Part) (d : Date) : Prop :=
  p = .after (operatorDate d) ∨ p = .before (operatorDate d)

variable {p q : Part} {a b : Date}

theorem IsBoundAt.operatorValue? (h : p.IsBoundAt a) :
    p.operatorValue? = some (operatorDate a) := by
  rcases h with rfl | rfl <;> rfl

theorem IsBoundAt.kind (h : p.IsBoundAt a) : p.kind = .after ∨ p.kind = .before := by
  rcases h with rfl | rfl
  · exact Or.inl rfl
  · exact Or.inr rfl

theorem boundToken_eq (k : PartKind) (d : Date) :
    boundToken k d = k.name ++ ':' :: operatorDate d := by
  rw [boundToken, operatorStart, List.append_assoc, List.singleton_append]

/-- A bound is written as the name of its side and its month. -/
theorem IsBoundAt.token (h : p.IsBoundAt a) (cal : Calendar) :
    p.token cal = .ok (boundToken p.kind a) := by
  rw [token_of_operatorValue? cal h.operatorValue?, operatorToken_eq_ok_iff]
  exact ⟨isWord_operatorDate a, boundToken_eq ..⟩

/-- A written bound is read back. -/
theorem IsBoundAt.ofToken (h : p.IsBoundAt a) :
    Part.ofToken (boundToken p.kind a) = .ok (some p) := by
  rw [boundToken_eq]
  exact ofToken_of_operator h.operatorValue? (not_dots_isInfix_operatorDate a)

/-- Canonical order compares bounds by their months, whichever sides they are on. -/
theorem IsBoundAt.compare (hp : p.IsBoundAt a) (hq : q.IsBoundAt b)
    (ha : 0 ≤ a.year ∧ a.year ≤ 9999) (hb : 0 ≤ b.year ∧ b.year ≤ 9999) :
    p.compare q = a.compareMonths b := by
  obtain ⟨hpg, hpv⟩ := group_orderText_of_operatorValue? hp.operatorValue?
  obtain ⟨hqg, hqv⟩ := group_orderText_of_operatorValue? hq.operatorValue?
  rw [Part.compare, hpg, hqg, hpv, hqv, Std.compare_self, Ordering.eq_then,
    compare_operatorDate ha hb]

end Part

namespace Query

/-- Date bounds whose years need no sign are compared by year and month in canonical order, on
whichever sides they are. The token of such a bound is read back as the bound and names the first
day of its month, from every reference day. So a query is read as the parts of its words with these
bounds in time order. -/
theorem bounds_chronological :
    (∀ (p q : Part) (a b : Date), p.IsBoundAt a → q.IsBoundAt b →
      0 ≤ a.year ∧ a.year ≤ 9999 → 0 ≤ b.year ∧ b.year ≤ 9999 →
        p.compare q = a.compareMonths b) ∧
    (∀ (p : Part) (a : Date), p.IsBoundAt a → 0 ≤ a.year ∧ a.year ≤ 9999 →
      (∀ cal, p.token cal = .ok (boundToken p.kind a)) ∧
      Part.ofToken (boundToken p.kind a) = .ok (some p) ∧
      ∃ first : Date, first.year = a.year ∧ first.month = a.month ∧ first.day = 1 ∧
        ∀ reference, Recognizer.recognize (boundToken p.kind a) reference = some first) ∧
    ∀ (query : Text) (ps : List Part), parse query = .ok ps →
      ∃ rs, Reads query.words rs ∧ ps.Perm rs ∧
        ps.Pairwise fun p q => ∀ a b : Date, p.IsBoundAt a → q.IsBoundAt b →
          0 ≤ a.year ∧ a.year ≤ 9999 → 0 ≤ b.year ∧ b.year ≤ 9999 → a.compareMonths b ≠ .gt := by
  refine ⟨fun p q a b => Part.IsBoundAt.compare, fun p a hp ha => ?_, fun query ps h => ?_⟩
  · obtain ⟨first, hf⟩ := Date.exists_firstOfIndex? a.monthIndex_mem
    obtain ⟨hi, hd⟩ := Date.firstOfIndex?_eq_some_iff.mp hf
    have hyear : first.year = a.year := by
      rw [← first.yearOfIndex_monthIndex, hi, Date.yearOfIndex_monthIndex]
    have hmonth : first.month = a.month := by
      rw [← first.monthOfIndex_monthIndex, hi, Date.monthOfIndex_monthIndex]
    refine ⟨hp.token, hp.ofToken, first, hyear, hmonth, hd, fun reference => ?_⟩
    rw [boundToken, ← operatorDate_eq_iff.mpr hi]
    exact Recognizer.recognize_boundToken hp.kind hd (hyear ▸ ha) reference
  · obtain ⟨rs, hr, rfl⟩ := parse_eq_ok_iff.mp h
    refine ⟨rs, hr, Part.canonical_perm rs, ?_⟩
    refine (Part.ordered_canonical rs).imp fun {p q} hpq a b hp hq ha hb => ?_
    rw [← hp.compare hq ha hb]
    exact bne_iff_ne.mp hpq

/-- An upper bound that is written first stands behind a lower bound of the December before. -/
theorem bounds_chronological_december :
    let a : Date := ⟨2023, 1, 31, by decide⟩
    let b : Date := ⟨2022, 12, 5, by decide⟩
    let q : Text := "before:2023-01-01 rust after:2022-12-01".toList
    let ps : List Part := [.text "rust".toList, .after "2022-12-01".toList,
      .before "2023-01-01".toList]
    Part.compare (.before (operatorDate a)) (.after (operatorDate b)) = .gt ∧
      (∀ reference, Recognizer.recognize "before:2023-01-01".toList reference =
        some ⟨2023, 1, 1, by decide⟩) ∧
      parse q = .ok ps ∧ b.compareMonths a = .lt ∧
      ∃ rs, Reads q.words rs ∧ ps.Perm rs ∧ ps.Pairwise fun p q => ∀ c d : Date,
        p.IsBoundAt c → q.IsBoundAt d → 0 ≤ c.year ∧ c.year ≤ 9999 →
          0 ≤ d.year ∧ d.year ≤ 9999 → c.compareMonths d ≠ .gt := by
  intro a b q ps
  have ha : 0 ≤ a.year ∧ a.year ≤ 9999 := by decide
  have hb : 0 ≤ b.year ∧ b.year ≤ 9999 := by decide
  have htext : boundToken .before a = "before:2023-01-01".toList := by decide +kernel
  obtain ⟨hcompare, htoken, hparse⟩ := bounds_chronological
  obtain ⟨-, -, first, hy, hm, hd, hrec⟩ := htoken (.before (operatorDate a)) a (Or.inr rfl) ha
  have hfirst : first = ⟨2023, 1, 1, by decide⟩ := by
    cases first
    cases hy
    cases hm
    cases hd
    rfl
  have hday (reference : Date) : Recognizer.recognize "before:2023-01-01".toList reference =
      some ⟨2023, 1, 1, by decide⟩ := by
    rw [← htext, ← hfirst]
    exact hrec reference
  have hq : parse q = .ok ps := parse_eq_ok_iff.mpr
    ⟨[.before "2023-01-01".toList, .text "rust".toList, .after "2022-12-01".toList], rfl,
      (Part.canonical_eq_of_forall_mem (by decide +kernel) (by decide +kernel)).symm⟩
  exact ⟨hcompare _ _ a b (Or.inr rfl) (Or.inl rfl) ha hb, hday, hq, by decide, hparse q ps hq⟩

-- A year of five digits comes first among texts, though not in time.
example : Part.compare (.after (operatorDate ⟨10000, 1, 1, by decide⟩))
    (.after (operatorDate ⟨9999, 12, 1, by decide⟩)) = .lt := by decide +kernel

end Query

end JobSearch
