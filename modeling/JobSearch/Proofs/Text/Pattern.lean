import JobSearch.Text.Pattern
import JobSearch.Proofs.Text.Runs

/-!
# What patterns read

A pattern of this kind reads a text that its place offers, and whether it may read that text does
not depend on where the text stands. So a pattern is described by the texts it reads for each value,
and the description of a compound pattern follows from those of its parts.
-/

namespace JobSearch

namespace Cursor

/-- A text lies between two places. -/
def Passes (here : Cursor) (t : Text) (there : Cursor) : Prop :=
  here.after = t ++ there.after ∧ there.before = t.getLast?.or here.before

/-- The place is the start or the end of a word. -/
def AtBoundary (here : Cursor) : Prop :=
  (here.before.map CharClass.isWord).getD false ≠ Text.startsWord here.after

/-- The place some characters further on; there is none behind the end of the text. -/
def move : Cursor → Nat → Cursor
  | here, 0 => here
  | ⟨_, c :: r⟩, n + 1 => move ⟨some c, r⟩ n
  | ⟨b, []⟩, _ + 1 => ⟨b, []⟩

theorem passes_nil {here there : Cursor} : here.Passes [] there ↔ there = here := by
  obtain ⟨b, r⟩ := here
  obtain ⟨b', r'⟩ := there
  simp only [Passes, List.nil_append, List.getLast?_nil, Option.none_or, mk.injEq]
  exact ⟨fun h => ⟨h.2, h.1.symm⟩, fun h => ⟨h.2.symm, h.1⟩⟩

theorem passes_cons {b : Option Char} {c d : Char} {r t : Text} {there : Cursor} :
    Passes ⟨b, c :: r⟩ (d :: t) there ↔ c = d ∧ Passes ⟨some c, r⟩ t there := by
  have hlast : (d :: t).getLast?.or b = t.getLast?.or (some d) := by
    rw [List.getLast?_cons]
    cases t.getLast? <;> rfl
  simp only [Passes, hlast, List.cons_append, List.cons.injEq, and_assoc]
  exact and_congr_right fun hc => by rw [hc]

theorem not_passes_cons {b : Option Char} {d : Char} {t : Text} {there : Cursor} :
    ¬ Passes ⟨b, []⟩ (d :: t) there := by
  rintro ⟨h, -⟩
  cases h

/-- What lies between two places is split at the places between. -/
theorem passes_append {here there : Cursor} {s t : Text} :
    here.Passes (s ++ t) there ↔ ∃ mid, here.Passes s mid ∧ mid.Passes t there := by
  simp only [Passes]
  constructor
  · rintro ⟨ha, hb⟩
    refine ⟨⟨s.getLast?.or here.before, t ++ there.after⟩, ⟨?_, rfl⟩, rfl, ?_⟩
    · rw [ha, List.append_assoc]
    · rw [hb, List.getLast?_append, Option.or_assoc]
  · rintro ⟨mid, ⟨ha, hb⟩, ha', hb'⟩
    refine ⟨?_, ?_⟩
    · rw [ha, ha', List.append_assoc]
    · rw [hb', hb, List.getLast?_append, Option.or_assoc]

/-- A text in front leads to one place only. -/
theorem Passes.unique {here there there' : Cursor} {t : Text} (h : here.Passes t there)
    (h' : here.Passes t there') : there = there' := by
  obtain ⟨b, r⟩ := there
  obtain ⟨b', r'⟩ := there'
  rw [mk.injEq]
  exact ⟨h.2.trans h'.2.symm, List.append_cancel_left (h.1.symm.trans h'.1)⟩

/-- Moving passes the characters in front. -/
theorem passes_move (here : Cursor) (n : Nat) : here.Passes (here.after.take n) (here.move n) := by
  induction n generalizing here with
  | zero => exact passes_nil.mpr rfl
  | succ n ih =>
    obtain ⟨b, r⟩ := here
    cases r with
    | nil => exact passes_nil.mpr rfl
    | cons c r => exact passes_cons.mpr ⟨rfl, ih ⟨some c, r⟩⟩

/-- A place in a whole text has on its sides what moving leaves behind and what is left. -/
theorem move_eq (t : Text) (n : Nat) : move ⟨none, t⟩ n = ⟨(t.take n).getLast?, t.drop n⟩ := by
  have hthere : Passes ⟨none, t⟩ (t.take n) ⟨(t.take n).getLast?, t.drop n⟩ :=
    ⟨(List.take_append_drop n t).symm, Option.or_none.symm⟩
  exact (passes_move ⟨none, t⟩ n).unique hthere

/-- A place inside a text that lies in front is reached by moving. -/
theorem Passes.move {here there : Cursor} {s t : Text} (h : here.Passes (s ++ t) there) :
    here.Passes s (here.move s.length) ∧ (here.move s.length).Passes t there := by
  obtain ⟨mid, hs, ht⟩ := passes_append.mp h
  have hmid : mid = here.move s.length := by
    refine hs.unique ?_
    have hm := passes_move here s.length
    rwa [h.1, List.append_assoc, List.take_left] at hm
  exact hmid ▸ ⟨hs, ht⟩

/-- Behind a text, the place is a boundary as the end of the text and what follows tell. -/
theorem Passes.atBoundary_iff {here there : Cursor} {t : Text} (h : here.Passes t there)
    (ht : t ≠ []) : there.AtBoundary ↔ Text.endsWord t ≠ Text.startsWord there.after := by
  obtain ⟨c, hc⟩ := Option.ne_none_iff_exists'.mp (mt List.getLast?_eq_none_iff.mp ht)
  rw [AtBoundary, h.2, Text.endsWord, hc, Option.some_or]

end Cursor

namespace Pattern

/-- The pattern reads exactly the texts that `reads` allows for a value, wherever they stand, if it
may stop at their end. -/
def ReadsUpTo (p : Pattern α) (stops : Cursor → Prop) (reads : α → Text → Prop) : Prop :=
  ∀ here x there, (x, there) ∈ p.run here ↔ stops there ∧ ∃ t, reads x t ∧ here.Passes t there

/-- The pattern reads exactly the texts that `reads` allows for a value, wherever they stand. -/
abbrev Reads (p : Pattern α) (reads : α → Text → Prop) : Prop := p.ReadsUpTo (fun _ => True) reads

/-- The pattern reads exactly these texts, and returns the one that it read. -/
abbrev Copies (p : Pattern Text) (texts : Text → Prop) : Prop :=
  p.Reads fun x t => t = x ∧ texts x

/-- The pattern reads exactly these texts, whatever it returns. -/
def Covers (p : Pattern α) (texts : Text → Prop) : Prop :=
  ∀ here there, (∃ x, (x, there) ∈ p.run here) ↔ ∃ t, texts t ∧ here.Passes t there

theorem ReadsUpTo.congr {p : Pattern α} {stops : Cursor → Prop} {reads reads' : α → Text → Prop}
    (h : p.ReadsUpTo stops reads) (he : ∀ x t, reads x t ↔ reads' x t) :
    p.ReadsUpTo stops reads' := by
  intro here x there
  rw [h here x there]
  exact and_congr_right fun _ => exists_congr fun t => and_congr_left fun _ => he x t

theorem Copies.congr {p : Pattern Text} {texts texts' : Text → Prop} (h : p.Copies texts)
    (he : ∀ t, texts t ↔ texts' t) : p.Copies texts' :=
  ReadsUpTo.congr h fun x _ => and_congr_right fun _ => he x

theorem Covers.congr {p : Pattern α} {texts texts' : Text → Prop} (h : p.Covers texts)
    (he : ∀ t, texts t ↔ texts' t) : p.Covers texts' := by
  intro here there
  rw [h here there]
  exact exists_congr fun t => and_congr_left fun _ => he t

theorem ReadsUpTo.covers {p : Pattern α} {reads : α → Text → Prop} (h : p.Reads reads) :
    p.Covers fun t => ∃ x, reads x t := by
  intro here there
  simp only [h here _ there, true_and]
  exact ⟨fun ⟨x, t, hx, ht⟩ => ⟨t, ⟨x, hx⟩, ht⟩, fun ⟨t, ⟨x, hx⟩, ht⟩ => ⟨x, t, hx, ht⟩⟩

theorem Copies.covers {p : Pattern Text} {texts : Text → Prop} (h : p.Copies texts) :
    p.Covers texts := by
  refine (ReadsUpTo.covers h).congr fun t => ?_
  simp only [exists_eq_left']

theorem reads_pure (x : α) : (pure x : Pattern α).Reads fun y t => y = x ∧ t = [] := by
  intro here y there
  have hrun : (pure x : Pattern α).run here = [(x, here)] := rfl
  rw [hrun, List.mem_singleton, Prod.mk.injEq]
  constructor
  · rintro ⟨rfl, rfl⟩
    exact ⟨trivial, [], ⟨rfl, rfl⟩, Cursor.passes_nil.mpr rfl⟩
  · rintro ⟨-, t, ⟨rfl, rfl⟩, ht⟩
    exact ⟨rfl, Cursor.passes_nil.mp ht⟩

theorem mem_run_bind {p : Pattern α} {q : α → Pattern β} {here there : Cursor} {y : β} :
    (y, there) ∈ (p >>= q).run here ↔
      ∃ x mid, (x, mid) ∈ p.run here ∧ (y, there) ∈ (q x).run mid := by
  have hrun : (p >>= q).run here = (p.run here).flatMap fun m => (q m.1).run m.2 := rfl
  rw [hrun, List.mem_flatMap, Prod.exists]

/-- One pattern after another reads one text after another. -/
theorem Reads.bind {p : Pattern α} {q : α → Pattern β} {first : α → Text → Prop}
    {stops : Cursor → Prop} {next : α → β → Text → Prop} (hp : p.Reads first)
    (hq : ∀ x, (q x).ReadsUpTo stops (next x)) :
    (p >>= q).ReadsUpTo stops fun y t => ∃ x s r, first x s ∧ next x y r ∧ t = s ++ r := by
  intro here y there
  rw [mem_run_bind]
  constructor
  · rintro ⟨x, mid, hx, hy⟩
    obtain ⟨-, s, hs, hps⟩ := (hp _ _ _).mp hx
    obtain ⟨hstop, r, hr, hpr⟩ := (hq _ _ _ _).mp hy
    exact ⟨hstop, s ++ r, ⟨x, s, r, hs, hr, rfl⟩, Cursor.passes_append.mpr ⟨mid, hps, hpr⟩⟩
  · rintro ⟨hstop, t, ⟨x, s, r, hs, hr, rfl⟩, ht⟩
    obtain ⟨mid, hps, hpr⟩ := Cursor.passes_append.mp ht
    exact ⟨x, mid, (hp _ _ _).mpr ⟨trivial, s, hs, hps⟩,
      (hq _ _ _ _).mpr ⟨hstop, r, hr, hpr⟩⟩

/-- After a pattern whose value is not looked at, only the text that it reads counts. -/
theorem Covers.bind {p : Pattern α} {q : Pattern β} {texts : Text → Prop} {stops : Cursor → Prop}
    {next : β → Text → Prop} (hp : p.Covers texts) (hq : q.ReadsUpTo stops next) :
    (p >>= fun _ => q).ReadsUpTo stops fun y t => ∃ s r, texts s ∧ next y r ∧ t = s ++ r := by
  intro here y there
  rw [mem_run_bind]
  constructor
  · rintro ⟨x, mid, hx, hy⟩
    obtain ⟨s, hs, hps⟩ := (hp _ _).mp ⟨x, hx⟩
    obtain ⟨hstop, r, hr, hpr⟩ := (hq _ _ _).mp hy
    exact ⟨hstop, s ++ r, ⟨s, r, hs, hr, rfl⟩, Cursor.passes_append.mpr ⟨mid, hps, hpr⟩⟩
  · rintro ⟨hstop, t, ⟨s, r, hs, hr, rfl⟩, ht⟩
    obtain ⟨mid, hps, hpr⟩ := Cursor.passes_append.mp ht
    obtain ⟨x, hx⟩ := (hp _ _).mpr ⟨s, hs, hps⟩
    exact ⟨x, mid, hx, (hq _ _ _).mpr ⟨hstop, r, hr, hpr⟩⟩

theorem Copies.bind {p : Pattern Text} {q : Text → Pattern β} {texts : Text → Prop}
    {stops : Cursor → Prop} {next : Text → β → Text → Prop} (hp : p.Copies texts)
    (hq : ∀ s, (q s).ReadsUpTo stops (next s)) :
    (p >>= q).ReadsUpTo stops fun y t => ∃ s r, texts s ∧ next s y r ∧ t = s ++ r := by
  refine (Reads.bind hp hq).congr fun y t => ?_
  constructor
  · rintro ⟨x, s, r, ⟨rfl, hs⟩, hr, rfl⟩
    exact ⟨s, r, hs, hr, rfl⟩
  · rintro ⟨s, r, hs, hr, rfl⟩
    exact ⟨s, s, r, ⟨rfl, hs⟩, hr, rfl⟩

theorem mem_run_boundary {here there : Cursor} {u : Unit} :
    (u, there) ∈ boundary.run here ↔ here.AtBoundary ∧ there = here := by
  have hrun : boundary.run here = if (here.before.map CharClass.isWord).getD false !=
      Text.startsWord here.after then [((), here)] else [] := rfl
  rw [hrun, Cursor.AtBoundary, ← bne_iff_ne]
  split
  · next h => simp [h]
  · next h => simp [h]

/-- A boundary in front restricts where the pattern may start. -/
theorem mem_run_boundary_bind {q : Unit → Pattern α} {here there : Cursor} {x : α} :
    (x, there) ∈ (boundary >>= q).run here ↔ here.AtBoundary ∧ (x, there) ∈ (q ()).run here := by
  rw [mem_run_bind]
  constructor
  · rintro ⟨u, mid, hu, hx⟩
    obtain ⟨hb, rfl⟩ := mem_run_boundary.mp hu
    exact ⟨hb, hx⟩
  · rintro ⟨hb, hx⟩
    exact ⟨(), here, mem_run_boundary.mpr ⟨hb, rfl⟩, hx⟩

/-- A boundary at the end restricts where the pattern may stop. -/
theorem reads_boundary_pure (x : α) :
    (boundary >>= fun _ => pure x : Pattern α).ReadsUpTo Cursor.AtBoundary
      fun y t => y = x ∧ t = [] := by
  intro here y there
  rw [mem_run_boundary_bind, reads_pure x here y there, true_and]
  refine and_congr_left ?_
  rintro ⟨t, ⟨-, rfl⟩, ht⟩
  rw [Cursor.passes_nil.mp ht]

/-- Between two boundaries, a pattern reads what it reads elsewhere. -/
theorem ReadsUpTo.boundary_bind {q : Unit → Pattern α} {reads : α → Text → Prop}
    (h : (q ()).ReadsUpTo Cursor.AtBoundary reads) {here there : Cursor} {x : α} :
    (x, there) ∈ (boundary >>= q).run here ↔
      here.AtBoundary ∧ there.AtBoundary ∧ ∃ t, reads x t ∧ here.Passes t there :=
  mem_run_boundary_bind.trans (and_congr_right fun _ => h here x there)

/-- What `reads` allows for a value, or nothing read and no value. -/
def Optionally (reads : α → Text → Prop) : Option α → Text → Prop
  | some x, t => reads x t
  | none, t => t = []

theorem Reads.orElse {p q : Pattern α} {left right : α → Text → Prop} (hp : p.Reads left)
    (hq : q.Reads right) : (orElse p q).Reads fun x t => left x t ∨ right x t := by
  intro here x there
  have hrun : (Pattern.orElse p q).run here = p.run here ++ q.run here := rfl
  rw [hrun, List.mem_append, hp here x there, hq here x there]
  simp only [true_and, or_and_right, exists_or]

theorem Reads.optional {p : Pattern α} {reads : α → Text → Prop} (hp : p.Reads reads) :
    (optional p).Reads (Optionally reads) := by
  have hsome := hp.bind fun x => reads_pure (some x)
  refine (Reads.orElse hsome (reads_pure none)).congr fun o t => ?_
  cases o with
  | none => simp [Optionally]
  | some x =>
    constructor
    · rintro (⟨y, s, r, hs, ⟨hy, rfl⟩, rfl⟩ | ⟨ho, -⟩)
      · obtain rfl := Option.some.inj hy
        rwa [List.append_nil]
      · cases ho
    · intro ht
      exact Or.inl ⟨x, t, [], ht, ⟨rfl, rfl⟩, (List.append_nil t).symm⟩

theorem Covers.optional {p : Pattern α} {texts : Text → Prop} (hp : p.Covers texts) :
    (optional p).Covers fun t => t = [] ∨ texts t := by
  intro here there
  have hrun : (Pattern.optional p).run here =
      ((p.run here).flatMap fun m => [(some m.1, m.2)]) ++ [(none, here)] := rfl
  have hleft : (∃ o, (o, there) ∈ (Pattern.optional p).run here) ↔
      there = here ∨ ∃ x, (x, there) ∈ p.run here := by
    rw [hrun, Option.exists]
    simp
  simp only [hleft, hp here there, or_and_right, exists_or, exists_eq_left, Cursor.passes_nil]

theorem reads_oneOf_nil : (oneOf ([] : List (Pattern α))).Reads fun _ _ => False := by
  intro here x there
  have hrun : (oneOf ([] : List (Pattern α))).run here = [] := rfl
  simp [hrun]

theorem Reads.oneOf_cons {p : Pattern α} {ps : List (Pattern α)} {first rest : α → Text → Prop}
    (hp : p.Reads first) (hps : (oneOf ps).Reads rest) :
    (oneOf (p :: ps)).Reads fun x t => first x t ∨ rest x t :=
  hp.orElse hps

theorem reads_char (isIn : Char → Bool) :
    (char isIn).Reads fun c t => t = [c] ∧ isIn c = true := by
  rintro ⟨b, r⟩ x there
  simp only [true_and, and_assoc, exists_eq_left]
  cases r with
  | nil => exact iff_of_false List.not_mem_nil fun h => Cursor.not_passes_cons h.2
  | cons c r =>
    have hrun : (char isIn).run ⟨b, c :: r⟩ = if isIn c then [(c, ⟨some c, r⟩)] else [] := rfl
    rw [hrun, Cursor.passes_cons, Cursor.passes_nil]
    split
    · next hc =>
      rw [List.mem_singleton, Prod.mk.injEq]
      constructor
      · rintro ⟨rfl, rfl⟩
        exact ⟨hc, rfl, rfl⟩
      · rintro ⟨-, rfl, rfl⟩
        exact ⟨rfl, rfl⟩
    · next hc =>
      refine iff_of_false List.not_mem_nil ?_
      rintro ⟨hx, rfl, -⟩
      exact hc hx

/-- One character of a class and more characters of it. -/
theorem Copies.cons {isIn : Char → Bool} {p : Pattern Text} {texts : Text → Prop}
    (hp : p.Copies texts) :
    (char isIn >>= fun c => p >>= fun cs => pure (c :: cs)).Copies fun t =>
      match t with
      | [] => False
      | c :: cs => isIn c = true ∧ texts cs := by
  refine ((reads_char isIn).bind fun c => hp.bind fun cs => reads_pure (c :: cs)).congr
    fun x t => ?_
  constructor
  · rintro ⟨c, s, r, ⟨rfl, hc⟩, ⟨cs, r', hcs, ⟨rfl, rfl⟩, rfl⟩, rfl⟩
    exact ⟨by simp, hc, hcs⟩
  · rintro ⟨rfl, h⟩
    cases t with
    | nil => cases h
    | cons c cs => exact ⟨c, [c], cs, ⟨rfl, h.1⟩, ⟨cs, [], h.2, ⟨rfl, rfl⟩, by simp⟩, rfl⟩

theorem copies_nil : (pure [] : Pattern Text).Copies (· = []) :=
  (reads_pure []).congr fun _ _ =>
    ⟨fun ⟨hx, ht⟩ => ⟨ht.trans hx.symm, hx⟩, fun ⟨ht, hx⟩ => ⟨hx, ht.trans hx⟩⟩

theorem copies_exactly (isIn : Char → Bool) (count : Nat) :
    (exactly isIn count).Copies fun t => t.length = count ∧ ∀ c ∈ t, isIn c = true := by
  induction count with
  | zero =>
    refine copies_nil.congr fun t => ?_
    cases t <;> simp
  | succ count ih =>
    refine (Copies.cons ih).congr fun t => ?_
    cases t with
    | nil => simp
    | cons c cs => simp [and_left_comm]

theorem Copies.orElse {p q : Pattern Text} {left right : Text → Prop} (hp : p.Copies left)
    (hq : q.Copies right) : (Pattern.orElse p q).Copies fun t => left t ∨ right t :=
  (Reads.orElse hp hq).congr fun x t => by rw [← and_or_left]

theorem copies_upTo (isIn : Char → Bool) (most : Nat) :
    (upTo isIn most).Copies fun t => t.length ≤ most ∧ ∀ c ∈ t, isIn c = true := by
  induction most with
  | zero =>
    refine copies_nil.congr fun t => ?_
    cases t <;> simp
  | succ most ih =>
    refine (Copies.orElse (Copies.cons ih) copies_nil).congr fun t => ?_
    cases t with
    | nil => simp
    | cons c cs => simp [and_left_comm]

theorem copies_oneUpTo (isIn : Char → Bool) {most : Nat} (h : 0 < most) :
    (oneUpTo isIn most).Copies fun t =>
      (0 < t.length ∧ t.length ≤ most) ∧ ∀ c ∈ t, isIn c = true := by
  refine (Copies.cons (copies_upTo isIn (most - 1))).congr fun t => ?_
  cases t with
  | nil => simp
  | cons c cs =>
    rw [List.forall_mem_cons, List.length_cons]
    constructor
    · rintro ⟨hc, hlen, hcs⟩
      exact ⟨by omega, hc, hcs⟩
    · rintro ⟨hlen, hc, hcs⟩
      exact ⟨hc, by omega, hcs⟩

theorem mem_placesAfter {isIn : Char → Bool} {r : Text} {there : Cursor} {b : Option Char} :
    there ∈ placesAfter isIn r ↔
      ∃ t, (t ≠ [] ∧ ∀ c ∈ t, isIn c = true) ∧ Cursor.Passes ⟨b, r⟩ t there := by
  induction r generalizing b with
  | nil =>
    refine iff_of_false List.not_mem_nil ?_
    rintro ⟨_ | ⟨d, t⟩, ⟨hne, -⟩, ht⟩
    · exact hne rfl
    · exact Cursor.not_passes_cons ht
  | cons c r ih =>
    have hcons : (∃ t, (t ≠ [] ∧ ∀ c ∈ t, isIn c = true) ∧ Cursor.Passes ⟨b, c :: r⟩ t there) ↔
        isIn c = true ∧ ∃ t, (∀ c ∈ t, isIn c = true) ∧ Cursor.Passes ⟨some c, r⟩ t there := by
      constructor
      · rintro ⟨_ | ⟨d, t⟩, ⟨hne, hin⟩, ht⟩
        · exact (hne rfl).elim
        · obtain ⟨hd, hpass⟩ := Cursor.passes_cons.mp ht
          obtain ⟨hc, hin⟩ := List.forall_mem_cons.mp hin
          exact ⟨hd ▸ hc, t, hin, hpass⟩
      · rintro ⟨hc, t, hin, ht⟩
        exact ⟨c :: t, ⟨List.cons_ne_nil _ _, List.forall_mem_cons.mpr ⟨hc, hin⟩⟩,
          Cursor.passes_cons.mpr ⟨rfl, ht⟩⟩
    rw [hcons, placesAfter]
    split
    · next hc =>
      rw [List.mem_append, List.mem_singleton, @ih (some c)]
      constructor
      · rintro (⟨t, ⟨-, hin⟩, ht⟩ | rfl)
        · exact ⟨hc, t, hin, ht⟩
        · exact ⟨hc, [], by simp, Cursor.passes_nil.mpr rfl⟩
      · rintro ⟨-, t, hin, ht⟩
        cases t with
        | nil => exact Or.inr (Cursor.passes_nil.mp ht)
        | cons d t => exact Or.inl ⟨d :: t, ⟨List.cons_ne_nil _ _, hin⟩, ht⟩
    · next hc => exact iff_of_false List.not_mem_nil fun h => hc h.1

theorem covers_many (isIn : Char → Bool) :
    (many isIn).Covers fun t => t ≠ [] ∧ ∀ c ∈ t, isIn c = true := by
  rintro ⟨b, r⟩ there
  have hrun : (many isIn).run ⟨b, r⟩ = (placesAfter isIn r).map fun there => ((), there) := rfl
  rw [hrun, ← mem_placesAfter]
  simp

/-- Small ASCII letters only. -/
def IsSmall (t : Text) : Prop := ∀ l ∈ t, l.isLower = true

instance (t : Text) : Decidable (IsSmall t) :=
  decidable_of_iff (t.all Char.isLower = true) List.all_eq_true

/-- The small letter that a character stands for, if it stands for a letter. -/
def plainChar (c : Char) : Char := if c = 'ſ' then 's' else c.toLower

/-- The word in small letters that a text stands for. -/
def plain (t : Text) : Text := t.map plainChar

theorem isLetter_iff {l c : Char} (hl : l.isLower = true) :
    isLetter l c = true ↔ plainChar c = l := by
  rw [isLetter, plainChar]
  split
  · next hc =>
    subst hc
    have hne : 'ſ'.toLower ≠ l := by
      rintro rfl
      exact absurd hl (by decide)
    rw [beq_eq_false_iff_ne.mpr hne, Bool.false_or, beq_self_eq_true, Bool.and_true, beq_iff_eq]
    exact eq_comm
  · next hc => simp [hc]

/-- Only letters stand for letters: the ASCII ones and the long s. -/
theorem isAlpha_of_plainChar {c : Char} (h : (plainChar c).isLower = true) :
    c = 'ſ' ∨ c.isAlpha = true := by
  rw [plainChar] at h
  split at h
  · next hc => exact Or.inl hc
  · refine Or.inr (Bool.or_eq_true_iff.mpr ?_)
    by_cases hc : c.val ≥ 'A'.val ∧ c.val ≤ 'Z'.val
    · exact Or.inl (decide_eq_true hc)
    · have hsame : c.toLower = c := dif_neg hc
      exact Or.inr (hsame ▸ h)

/-- Whatever stands for a letter is a word character and no digit. -/
theorem isWord_of_plainChar {c : Char} (h : (plainChar c).isLower = true) :
    CharClass.isWord c = true ∧ CharClass.isDigit c = false := by
  rcases isAlpha_of_plainChar h with rfl | hc
  · decide +kernel
  · have hn := CharClass.toNat_of_isAlpha hc
    have hlt : c.toNat < 128 := by omega
    have hd : c.isDigit = false := by
      simp only [Char.isDigit, Bool.and_eq_false_iff, decide_eq_false_iff_not, ge_iff_le,
        UInt32.le_iff_toNat_le]
      right
      change ¬ c.toNat ≤ 57
      omega
    rw [CharClass.isWord, CharClass.isDigit, if_pos hlt, if_pos hlt]
    exact ⟨by simp [Char.isAlphanum, hc], hd⟩

theorem copies_letters {ls : Text} (h : IsSmall ls) :
    (letters ls).Copies (plain · = ls) := by
  induction ls with
  | nil =>
    refine copies_nil.congr fun t => ?_
    simp [plain]
  | cons l ls ih =>
    obtain ⟨hl, hls⟩ := List.forall_mem_cons.mp h
    refine (Copies.cons (ih hls)).congr fun t => ?_
    cases t with
    | nil => simp [plain]
    | cons c cs => simp [plain, isLetter_iff hl]

/-- The pattern reads these words in either case. -/
abbrev Spells (p : Pattern Text) (names : List Text) : Prop := p.Copies (plain · ∈ names)

theorem spells_oneOf_nil : (oneOf ([] : List (Pattern Text))).Spells [] :=
  reads_oneOf_nil.congr fun _ _ => by simp

theorem Spells.oneOf_cons {p : Pattern Text} {ps : List (Pattern Text)} {ns ms : List Text}
    (hp : p.Spells ns) (hps : (oneOf ps).Spells ms) : (oneOf (p :: ps)).Spells (ns ++ ms) :=
  (Copies.orElse hp hps).congr fun t => by rw [List.mem_append]

end Pattern

end JobSearch
