import JobSearch.Yaml.Writer

/-!
# Plain scalars that are read back

A scalar is scanned in turns of a piece and of the white space behind it. A text that can be written
plainly has no mark at which a piece would end early, so its pieces and its white space come back
one after the other, and the line break behind the text ends the scalar.
-/

namespace JobSearch.Yaml

/-- Every text is a piece, or a piece, then a gap that is not empty, then a text that starts with no
gap. -/
theorem induction_on_gaps (isGap : Char → Bool) {P : Text → Prop}
    (piece : ∀ w, (∀ c ∈ w, isGap c = false) → P w)
    (cut : ∀ w g r, (∀ c ∈ w, isGap c = false) → g ≠ [] → (∀ c ∈ g, isGap c = true) →
      (∀ c ∈ r.head?, isGap c = false) → P r → P (w ++ (g ++ r))) (t : Text) : P t := by
  -- The text continues a piece, or it continues a gap behind one.
  have key : (∀ w, (∀ c ∈ w, isGap c = false) → P (w ++ t)) ∧
      ∀ w g, (∀ c ∈ w, isGap c = false) → g ≠ [] → (∀ c ∈ g, isGap c = true) →
        P (w ++ (g ++ t)) := by
    induction t with
    | nil =>
      refine ⟨fun w hw => ?_, fun w g hw hne hg => ?_⟩
      · rw [List.append_nil]
        exact piece w hw
      · exact cut w g [] hw hne hg (by simp) (piece [] (by simp))
    | cons c r ih =>
      cases hc : isGap c with
      | false =>
        have hone : ∀ d ∈ [c], isGap d = false := List.forall_mem_singleton.mpr hc
        refine ⟨fun w hw => ?_, fun w g hw hne hg => ?_⟩
        · rw [List.append_cons]
          exact ih.1 (w ++ [c]) (List.forall_mem_append.mpr ⟨hw, hone⟩)
        · exact cut w g (c :: r) hw hne hg (by simpa using hc) (ih.1 [c] hone)
      | true =>
        have hone : ∀ d ∈ [c], isGap d = true := List.forall_mem_singleton.mpr hc
        refine ⟨fun w hw => ih.2 w [c] hw (by simp) hone, fun w g hw hne hg => ?_⟩
        rw [List.append_cons g c r]
        exact ih.2 w (g ++ [c]) hw (by simp) (List.forall_mem_append.mpr ⟨hg, hone⟩)
  exact key.1 [] (by simp)

/-- The text does not go on with white space. -/
def EndsGap (t : Text) : Prop := ∀ c ∈ t.head?, isBlank c = false ∧ isBreak c = false

theorem Place.skip_append (t r : Text) (i l c : Nat) :
    (⟨t ++ r, i, l, c⟩ : Place).skip t.length = ⟨r, i + t.length, l, c + t.length⟩ := by
  rw [skip, List.drop_left]

/-- Away from the start of a line no mark separates documents. -/
theorem Place.not_atDocumentMark {p : Place} (h : 0 < p.column) : p.atDocumentMark = false := by
  have hc : (p.column == 0) = false := beq_eq_false_iff_ne.mpr (Nat.ne_of_gt h)
  simp [atDocumentMark, atMark, hc]

/-- White space ends where the text goes on with something else. -/
theorem gap_end {t : Text} (ht : EndsGap t) (limit : Option Nat) (fuel : Nat) (g : Gap)
    (i l c : Nat) : gap limit (fuel + 1) g ⟨t, i, l, c⟩ = some (g, ⟨t, i, l, c⟩) := by
  cases t with
  | nil => rfl
  | cons d r =>
    obtain ⟨hb, hl⟩ := ht d rfl
    simp only [gap, hb, hl, Bool.false_eq_true, if_false]

/-- Blanks before the first line break are kept. -/
theorem gap_blanks {s : Text} (hs : ∀ c ∈ s, isBlank c = true) (limit : Option Nat) (fuel : Nat)
    (blanks r : Text) (i l c : Nat) :
    gap limit (fuel + s.length) ⟨blanks, none, []⟩ ⟨s ++ r, i, l, c⟩ =
      gap limit fuel ⟨blanks ++ s, none, []⟩ ⟨r, i + s.length, l, c + s.length⟩ := by
  induction s generalizing blanks i c with
  | nil => rw [List.append_nil]; rfl
  | cons d s ih =>
    obtain ⟨hd, hs⟩ := List.forall_mem_cons.mp hs
    have hstep : gap limit (fuel + (d :: s).length) ⟨blanks, none, []⟩ ⟨d :: s ++ r, i, l, c⟩ =
        gap limit (fuel + s.length) ⟨blanks ++ [d], none, []⟩ ⟨s ++ r, i + 1, l, c + 1⟩ := by
      rw [List.length_cons, ← Nat.add_assoc]
      simp [gap, hd, Gap.isBroken, Place.skip]
    rw [hstep, ih hs, List.append_assoc]
    simp only [List.singleton_append, List.length_cons, Nat.add_assoc, Nat.add_comm 1]

/-- What holds behind the first characters of a text without inner marks. -/
theorem hasInnerMark_of_append_cons {b : Bool} {x y : Text} {d : Char}
    (h : hasInnerMark b (x ++ d :: y) = false) :
    hasInnerMark (isBlank d || isBreak d) y = false := by
  induction x generalizing b with
  | nil =>
    rw [List.nil_append, hasInnerMark, Bool.or_eq_false_iff] at h
    exact h.2
  | cons c x ih =>
    rw [List.cons_append, hasInnerMark, Bool.or_eq_false_iff] at h
    exact ih h.2

/-- The end of a piece is a gap, and whatever gap follows it ends there. -/
theorem plainPiece_append {w s r : Text} {b : Bool}
    (hw : ∀ c ∈ w, (isBlank c || isBreak c) = false) (hm : hasInnerMark b (w ++ s) = false)
    (hs : atGap s = true) (hr : atGap r = true) : plainPiece false (w ++ r) = some w := by
  induction w generalizing b with
  | nil =>
    cases r with
    | nil => rfl
    | cons c r =>
      have hc : (isBlank c || isBreak c) = true := hr
      simp only [List.nil_append, plainPiece, hc, if_true]
  | cons c w ih =>
    obtain ⟨hc, hw⟩ := List.forall_mem_cons.mp hw
    rw [List.cons_append, hasInnerMark, Bool.or_eq_false_iff, Bool.or_eq_false_iff] at hm
    obtain ⟨⟨hcolon, -⟩, hm⟩ := hm
    have hgap : atGap (w ++ r) = atGap (w ++ s) := by
      cases w with
      | nil => rw [List.nil_append, List.nil_append, hr, hs]
      | cons d w => rfl
    rw [List.cons_append, plainPiece]
    simp only [hc, hgap, hcolon, ih hw hm, Bool.false_eq_true, if_false, Bool.false_and,
      Bool.or_self, Option.map_some]

/-- The text stands on one line, has no blank at either end and no mark that would end a plain
scalar. -/
structure IsPlainText (t : Text) : Prop where
  ne_nil : t ≠ []
  noBreak : ∀ c ∈ t, isBreak c = false
  head : ∀ c ∈ t.head?, isBlank c = false
  last : ∀ c ∈ t.getLast?, isBlank c = false
  noMark : hasInnerMark true t = false

/-- A scalar goes on with a piece and the gap behind it. -/
theorem plainFrom_piece {w r : Text} (hne : w ≠ []) (hw : plainPiece false (w ++ r) = some w)
    (hmark : startsWith '#' (w ++ r) = false) (hr : r ≠ []) (hgap : atGap r = true)
    (indent fuel : Nat) (before blanks : Text) (i l : Nat) {c : Nat} (hc : 0 < c) :
    plainFrom false indent (fuel + 1) before ⟨blanks, none, []⟩ ⟨w ++ r, i, l, c⟩ =
      (gap (some indent) (r.length + 1) Gap.empty ⟨r, i + w.length, l, c + w.length⟩).bind
        fun (g, p) =>
          if p.column < indent then some (before ++ blanks ++ w, p, g.isBroken)
          else plainFrom false indent fuel (before ++ blanks ++ w) g p := by
  obtain ⟨d, u, rfl⟩ := List.exists_cons_of_ne_nil hr
  have hd : (isBlank d || isBreak d) = true := hgap
  have hn : w.isEmpty = false := List.isEmpty_eq_false_iff.mpr hne
  have hmarked : (⟨w ++ d :: u, i, l, c⟩ : Place).atDocumentMark = false :=
    Place.not_atDocumentMark hc
  simp only [plainFrom, hmarked, hmark, hw, hn, Place.skip_append, hd, Gap.value,
    Bool.false_eq_true, if_false, if_true, Bool.or_self, Bool.not_false, Bool.true_and,
    decide_eq_true_eq]
  cases gap (some indent) ((d :: u).length + 1) Gap.empty
    ⟨d :: u, i + w.length, l, c + w.length⟩ <;> rfl

theorem not_startsWith_hash {t : Text} (h : hasInnerMark true t = false) (hne : t ≠ []) (r : Text) :
    startsWith '#' (t ++ r) = false := by
  obtain ⟨c, u, rfl⟩ := List.exists_cons_of_ne_nil hne
  rw [hasInnerMark, Bool.or_eq_false_iff, Bool.or_eq_false_iff, Bool.and_true] at h
  simpa [startsWith] using h.1.2

/-- A gap inside a plain text stands between a piece and a plain text. -/
theorem IsPlainText.cut {w g u : Text} (ht : IsPlainText (w ++ (g ++ u))) (hne : g ≠ [])
    (hg : ∀ c ∈ g, isBlank c = true) (hu : ∀ c ∈ u.head?, isBlank c = false) :
    w ≠ [] ∧ IsPlainText u := by
  have hlast := hg _ (List.getLast_mem hne)
  have hune : u ≠ [] := by
    rintro rfl
    have hd := ht.last (g.getLast hne)
      (by simp [List.getLast?_append, List.getLast?_eq_some_getLast hne])
    rw [hlast] at hd
    cases hd
  refine ⟨?_, hune, fun d hd => ht.noBreak d (by simp [hd]), hu,
    fun d hd => ht.last d (by simpa [List.getLast?_append, hune] using hd), ?_⟩
  · rintro rfl
    obtain ⟨d, g, rfl⟩ := List.exists_cons_of_ne_nil hne
    have hd := ht.head d rfl
    rw [hg d (List.mem_cons_self ..)] at hd
    cases hd
  · have h := ht.noMark
    rw [← List.dropLast_concat_getLast hne, List.append_assoc, ← List.append_assoc] at h
    have hmark := hasInnerMark_of_append_cons h
    rwa [hlast, Bool.true_or] at hmark

/-- A plain text comes back up to the line break behind it. -/
theorem IsPlainText.plainFrom {t : Text} (ht : IsPlainText t) {r : Text} (hr : EndsGap r)
    {fuel : Nat} (hf : t.length < fuel) (before blanks : Text) (i l : Nat) {c : Nat} (hc : 0 < c) :
    plainFrom false 1 fuel before ⟨blanks, none, []⟩ ⟨t ++ '\n' :: r, i, l, c⟩ =
      some (before ++ blanks ++ t, ⟨r, i + t.length + 1, l + 1, 0⟩, true) := by
  induction t using induction_on_gaps isBlank generalizing fuel before blanks i c with
  | piece w hw =>
    obtain ⟨fuel, rfl⟩ : ∃ n, fuel = n + 1 := ⟨fuel - 1, by omega⟩
    have hpiece : plainPiece false (w ++ '\n' :: r) = some w := by
      refine plainPiece_append (fun d hd => ?_) (by rw [List.append_nil]; exact ht.noMark) rfl rfl
      rw [hw d hd, ht.noBreak d hd, Bool.or_self]
    have hgap : gap (some 1) (('\n' :: r).length + 1) Gap.empty
        ⟨'\n' :: r, i + w.length, l, c + w.length⟩ =
          some (⟨[], some ['\n'], []⟩, ⟨r, i + w.length + 1, l + 1, 0⟩) :=
      gap_end hr (some 1) r.length ⟨[], some ['\n'], []⟩ _ _ _
    rw [plainFrom_piece ht.ne_nil hpiece (not_startsWith_hash ht.noMark ht.ne_nil _)
      (List.cons_ne_nil _ _) rfl 1 fuel before blanks i l hc, hgap]
    rfl
  | cut w g u hw hne hg hu ih =>
    obtain ⟨fuel, rfl⟩ : ∃ n, fuel = n + 1 := ⟨fuel - 1, by omega⟩
    obtain ⟨hwne, hplain⟩ := ht.cut hne hg hu
    have hbehind (s : Text) : atGap (g ++ s) = true := by
      obtain ⟨d, g, rfl⟩ := List.exists_cons_of_ne_nil hne
      simp only [List.cons_append, atGap, hg d (List.mem_cons_self ..), Bool.true_or]
    have hpiece : plainPiece false (w ++ (g ++ (u ++ '\n' :: r))) = some w := by
      refine plainPiece_append (fun d hd => ?_) ht.noMark (hbehind u) (hbehind _)
      rw [hw d hd, ht.noBreak d (List.mem_append_left _ hd), Bool.or_self]
    have hends : EndsGap (u ++ '\n' :: r) := by
      obtain ⟨d, v, rfl⟩ := List.exists_cons_of_ne_nil hplain.ne_nil
      intro e he
      obtain rfl : d = e := Option.some.inj he
      exact ⟨hu d rfl, hplain.noBreak d (List.mem_cons_self ..)⟩
    have hgap : gap (some 1) ((g ++ (u ++ '\n' :: r)).length + 1) Gap.empty
        ⟨g ++ (u ++ '\n' :: r), i + w.length, l, c + w.length⟩ =
          some (⟨g, none, []⟩, ⟨u ++ '\n' :: r, i + w.length + g.length, l,
            c + w.length + g.length⟩) := by
      have hlen : (g ++ (u ++ '\n' :: r)).length + 1 =
          (u ++ '\n' :: r).length + 1 + g.length := by
        rw [List.length_append]
        omega
      rw [hlen, Gap.empty, gap_blanks hg]
      exact gap_end hends _ _ _ _ _ _
    have hmark := not_startsWith_hash ht.noMark ht.ne_nil ('\n' :: r)
    have hlen := List.length_pos_iff.mpr hne
    have hcol : ¬c + w.length + g.length < 1 := by omega
    simp only [List.length_append] at hf
    rw [List.append_assoc, List.append_assoc] at hmark ⊢
    rw [plainFrom_piece hwne hpiece hmark (by simp [hne]) (hbehind _) 1 fuel before blanks i l hc,
      hgap, Option.bind_some]
    simp only [hcol, if_false]
    rw [ih hplain (by omega) _ _ _ (by omega)]
    simp only [List.append_assoc, List.length_append, Nat.add_assoc]

/-- A text that can be written plainly comes back, with the line break behind it. -/
theorem IsPlainText.plain {t : Text} (ht : IsPlainText t) {r : Text} (hr : EndsGap r) (i l : Nat)
    {c : Nat} (hc : 0 < c) :
    plain false 1 ⟨t ++ '\n' :: r, i, l, c⟩ =
      some (t, ⟨r, i + t.length + 1, l + 1, 0⟩, true) := by
  have hf : t.length < (t ++ '\n' :: r).length + 1 := by
    rw [List.length_append]
    omega
  exact ht.plainFrom hr hf [] [] i l hc

end JobSearch.Yaml
