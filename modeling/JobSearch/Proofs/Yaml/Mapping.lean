import JobSearch.Proofs.Yaml.Quoted
import JobSearch.Yaml.Node

/-!
# Mappings of scalars that are read back

A mapping with one line for each entry is cut line by line. Between two lines the state differs only
in the tokens so far: the first key has opened the mapping, and whichever way the value was written,
the line break behind it lets the next key start. The tokens of each line are then read as one
entry.
-/

namespace JobSearch.Yaml

namespace Lexer

/-- Here a token starts, or the text ends. -/
structure StartsToken (t : Text) : Prop where
  endsGap : EndsGap t
  noComment : startsWith '#' t = false

theorem startsToken_nil : StartsToken [] := ⟨nofun, rfl⟩

/-- Where a token starts, nothing is passed over, but a mark of the byte order at the very start. -/
theorem toToken_of_startsToken {t : Text} (ht : StartsToken t) {i : Nat}
    (hi : i ≠ 0 ∨ startsWith '\ufeff' t = false) (fuel : Nat) (inFlow keyAllowed : Bool)
    (l k : Nat) :
    toToken (fuel + 1) inFlow keyAllowed ⟨t, i, l, k⟩ = (⟨t, i, l, k⟩, keyAllowed) := by
  have hmark : (i == 0 && startsWith '\ufeff' t) = false := by
    obtain h | h := hi
    · rw [beq_eq_false_iff_ne.mpr h, Bool.false_and]
    · rw [h, Bool.and_false]
  cases t with
  | nil => simp [toToken, Place.skipWhile, Place.skip, startsWith]
  | cons c r =>
    obtain ⟨hblank, hbreak⟩ := ht.endsGap c rfl
    rw [isBlank, Bool.or_eq_false_iff] at hblank
    simp [toToken, hmark, Place.skipWhile, Place.skip, hblank.1, hblank.2, hbreak, ht.noComment]

/-- A space in front of a token is passed over. -/
theorem toToken_space {t : Text} (ht : StartsToken t) (fuel : Nat) (keyAllowed : Bool)
    (i l k : Nat) :
    toToken (fuel + 1) false keyAllowed ⟨' ' :: t, i, l, k⟩ =
      (⟨t, i + 1, l, k + 1⟩, keyAllowed) := by
  have h := toToken_of_startsToken ht (Or.inl (Nat.succ_ne_zero i)) fuel false keyAllowed l (k + 1)
  have hskip (isIn : Char → Bool) (hs : isIn ' ' = true) :
      (⟨' ' :: t, i, l, k⟩ : Place).skipWhile isIn =
        (⟨t, i + 1, l, k + 1⟩ : Place).skipWhile isIn := by
    simp [Place.skipWhile, Place.skip, hs, Nat.add_comm, Nat.add_left_comm]
  rw [← h, toToken, toToken]
  simp [startsWith, hskip]

/-- Behind a line break a key may start. -/
theorem toToken_lineBreak {t : Text} (ht : StartsToken t) (fuel : Nat) (keyAllowed : Bool)
    (i l k : Nat) :
    toToken (fuel + 2) false keyAllowed ⟨'\n' :: t, i, l, k⟩ = (⟨t, i + 1, l + 1, 0⟩, true) := by
  have h := toToken_of_startsToken ht (Or.inl (Nat.succ_ne_zero i)) fuel false true (l + 1) 0
  rw [← h, toToken]
  simp [Place.skipWhile, Place.skip, startsWith, isBreak, Place.skipBreak]

/-- The first character of a plain scalar. -/
structure StartsPlain (c : Char) (r : Text) : Prop where
  noGap : isBlank c = false ∧ isBreak c = false
  noIndicator : isIndicator c = false
  noMark : ((c == '?' || c == ':' || c == '-') && atGap r) = false

theorem StartsPlain.startsPlain {c : Char} {r : Text} (hc : StartsPlain c r) :
    startsPlain false c r = true := by
  have hne := hc.noIndicator
  have hmark := hc.noMark
  simp [isIndicator] at hne
  by_cases hh : c = '-'
  · subst hh
    cases r with
    | nil => cases hmark
    | cons d r =>
      have hd : isBlank d = false := (Bool.or_eq_false_iff.mp hmark).1
      simp [Lexer.startsPlain, hd]
  · by_cases hq : c = '?' ∨ c = ':'
    · have hr : atGap r = false := by
        obtain rfl | rfl := hq <;> exact hmark
      simp [Lexer.startsPlain, hq, hr]
    · rw [not_or] at hq
      simp [Lexer.startsPlain, hc.noGap, hne, hh, hq]

/-- A token that starts with such a character is a plain scalar. -/
theorem token_eq_plainScalar {s : Lexer} {c : Char} {r : Text} (hrest : s.place.rest = c :: r)
    (hflow : s.inFlow = false) (hplace : s.place.atDocumentMark = false) (hc : StartsPlain c r) :
    s.token = s.plainScalar := by
  have hne := hc.noIndicator
  have hmark : ∀ d, (d == '?' || d == ':' || d == '-') = true → ¬(c = d ∧ atGap r = true) := by
    rintro d hd ⟨rfl, hr⟩
    have h := hc.noMark
    rw [hd, hr] at h
    cases h
  simp [isIndicator] at hne
  simp only [Place.atDocumentMark, Bool.or_eq_false_iff] at hplace
  simp [token, hrest, hplace, hflow, hne, hmark '-' rfl, hmark '?' rfl, hmark ':' rfl,
    hc.startsPlain]

/-- The state at a place inside a mapping that is not indented. -/
def inside (ts : List Token) (keyAllowed : Bool) (p : Place) : Lexer :=
  ⟨p, ts, 0, [-1], keyAllowed, none, []⟩

theorem advance_inside {ts : List Token} {keyAllowed b : Bool} {p q : Place}
    (h : toToken (p.rest.length + 1) false keyAllowed p = (q, b)) :
    (inside ts keyAllowed p).advance = some (inside ts b q) := by
  have hcol : ¬(q.column : Int) < 0 := by omega
  simp [advance, inside, inFlow, h, dropStale, unroll, unrollFrom, hcol]

/-- The line of a value behind its key: the scalar is cut, and then the next line starts at a place
where a key may start. -/
structure ReadsLine (line : Text) (style : Style) (value : Text) : Prop where
  ne_nil : line ≠ []
  startsToken : StartsToken line
  read : ∀ r, StartsToken r → ∀ ts i l k, 0 < k → ∃ s i' l',
    (inside ts false ⟨line ++ r, i, l, k⟩).token = some s ∧
      s.advance = some (inside (ts ++ [.scalar style value]) true ⟨r, i', l', 0⟩)

/-- A plain text is a value. -/
theorem readsLine_plain {c : Char} {u : Text} (ht : IsPlainText (c :: u)) (hc : StartsPlain c u) :
    ReadsLine (c :: u ++ ['\n']) .plain (c :: u) where
  ne_nil := List.cons_ne_nil _ _
  startsToken := by
    refine ⟨fun d hd => ?_, ?_⟩
    · obtain rfl : c = d := Option.some.inj hd
      exact hc.noGap
    · exact not_startsWith_hash ht.noMark ht.ne_nil _
  read r hr ts i l k hk := by
    have hplace : (⟨c :: u ++ '\n' :: r, i, l, k⟩ : Place).atDocumentMark = false :=
      Place.not_atDocumentMark hk
    have hgap : atGap (u ++ '\n' :: r) = atGap u := by cases u <;> rfl
    have hfirst : StartsPlain c (u ++ '\n' :: r) :=
      ⟨hc.noGap, hc.noIndicator, by rw [hgap]; exact hc.noMark⟩
    have htoken := token_eq_plainScalar (s := inside ts false ⟨c :: u ++ '\n' :: r, i, l, k⟩)
      rfl rfl hplace hfirst
    have hscalar : (inside ts false ⟨c :: u ++ '\n' :: r, i, l, k⟩).plainScalar =
        some (inside (ts ++ [.scalar .plain (c :: u)]) true
          ⟨r, i + (c :: u).length + 1, l + 1, 0⟩) := by
      have hplain := ht.plain hr.endsGap i l hk
      simp only [plainScalar, saveKey, inside, Bool.false_eq_true, if_false]
      exact congrArg (Option.map _) hplain
    rw [List.append_assoc, List.singleton_append]
    exact ⟨_, _, _, htoken.trans hscalar,
      advance_inside (toToken_of_startsToken hr (Or.inl (Nat.succ_ne_zero _)) _ _ _ _ _)⟩

/-- A scalar between quotes is a value. -/
theorem readsLine_quoted {quote : Char} {w t : Text} (hquote : quote = '"' ∨ quote = '\x27')
    (hw : w.head? = some quote)
    (hread : ∀ r i l k, ∃ i' l' k', quoted ⟨w ++ '\n' :: r, i, l, k⟩ =
      some (t, ⟨'\n' :: r, i', l', k'⟩)) :
    ReadsLine (w ++ ['\n']) .quoted t := by
  obtain ⟨u, rfl⟩ : ∃ u, w = quote :: u := by
    cases w with
    | nil => cases hw
    | cons c u => exact ⟨u, by rw [Option.some.inj hw]⟩
  refine ⟨List.cons_ne_nil _ _, ⟨fun d hd => ?_, ?_⟩, fun r hr ts i l k hk => ?_⟩
  · obtain rfl : quote = d := Option.some.inj hd
    obtain rfl | rfl := hquote <;> exact ⟨rfl, rfl⟩
  · obtain rfl | rfl := hquote <;> rfl
  · obtain ⟨i', l', k', hq⟩ := hread r i l k
    have hplace : (⟨quote :: (u ++ '\n' :: r), i, l, k⟩ : Place).atDocumentMark = false :=
      Place.not_atDocumentMark hk
    have htoken : (inside ts false ⟨quote :: (u ++ '\n' :: r), i, l, k⟩).token =
        some (inside (ts ++ [.scalar .quoted t]) false ⟨'\n' :: r, i', l', k'⟩) := by
      rw [List.cons_append] at hq
      simp only [Place.atDocumentMark, Bool.or_eq_false_iff] at hplace
      obtain rfl | rfl := hquote <;>
        simp [token, inside, hplace, simple, saveKey, hq, emit, inFlow]
    rw [List.append_assoc, List.singleton_append]
    exact ⟨_, _, _, htoken, advance_inside (toToken_lineBreak hr _ _ _ _ _)⟩

/-- A character of a key. -/
def isKeyChar (c : Char) : Bool := c.isAlphanum || c == '_'

theorem ne_of_isKeyChar {c d : Char} (hc : isKeyChar c = true) (hd : isKeyChar d = false) :
    c ≠ d := by
  rintro rfl
  rw [hc] at hd
  cases hd

/-- A key that is written plainly and short enough to be told from its colon. -/
structure IsKey (name : Text) : Prop where
  ne_nil : name ≠ []
  short : name.length ≤ 1024
  chars : ∀ c ∈ name, isKeyChar c = true

theorem not_gap_of_isKeyChar {c : Char} (hc : isKeyChar c = true) :
    isBlank c = false ∧ isBreak c = false := by
  have hne (d : Char) (hd : isKeyChar d = false) : (c == d) = false :=
    beq_eq_false_iff_ne.mpr (ne_of_isKeyChar hc hd)
  simp [isBlank, isBreak, hne ' ' rfl, hne '\t' rfl, hne '\n' rfl, hne '\r' rfl, hne '\u0085' rfl,
    hne '\u2028' rfl, hne '\u2029' rfl]

theorem startsPlain_of_isKeyChar {c : Char} (hc : isKeyChar c = true) (r : Text) :
    StartsPlain c r := by
  have hne (d : Char) (hd : isKeyChar d = false) : (c == d) = false :=
    beq_eq_false_iff_ne.mpr (ne_of_isKeyChar hc hd)
  have hindicators : "#,[]\x7b\x7d&*!|>\x27\"%@`".toList.all (!isKeyChar ·) = true := by decide
  refine ⟨not_gap_of_isKeyChar hc, ?_, ?_⟩
  · rw [isIndicator, List.contains_eq_mem, decide_eq_false_iff_not]
    intro hm
    have hn := List.all_eq_true.mp hindicators c hm
    rw [hc] at hn
    cases hn
  · rw [hne '?' rfl, hne ':' rfl, hne '-' rfl]
    rfl

/-- A text that starts with a key starts with none of the other characters. -/
theorem IsKey.not_startsWith {name : Text} (h : IsKey name) {c : Char} (hc : isKeyChar c = false)
    (r : Text) : startsWith c (name ++ r) = false := by
  obtain ⟨d, u, rfl⟩ := List.exists_cons_of_ne_nil h.ne_nil
  have hd := ne_of_isKeyChar (h.chars d (List.mem_cons_self ..)) hc
  simpa [startsWith] using hd

theorem IsKey.startsToken {name : Text} (h : IsKey name) (r : Text) : StartsToken (name ++ r) := by
  refine ⟨?_, h.not_startsWith rfl r⟩
  obtain ⟨c, u, rfl⟩ := List.exists_cons_of_ne_nil h.ne_nil
  intro d hd
  obtain rfl : c = d := Option.some.inj hd
  exact not_gap_of_isKeyChar (h.chars c (List.mem_cons_self ..))

/-- No key separates documents. -/
theorem IsKey.not_atDocumentMark {name : Text} (h : IsKey name) (r : Text) (i l k : Nat) :
    (⟨name ++ r, i, l, k⟩ : Place).atDocumentMark = false := by
  obtain ⟨c, u, rfl⟩ := List.exists_cons_of_ne_nil h.ne_nil
  have hc := h.chars c (List.mem_cons_self ..)
  have hh : c ≠ '-' := ne_of_isKeyChar hc rfl
  have hd : c ≠ '.' := ne_of_isKeyChar hc rfl
  simp [Place.atDocumentMark, Place.atMark, hh, hd]

theorem plainPiece_key {name : Text} (h : ∀ c ∈ name, isKeyChar c = true) (r : Text) :
    plainPiece false (name ++ ':' :: ' ' :: r) = some name := by
  induction name with
  | nil => rfl
  | cons c u ih =>
    obtain ⟨hc, hu⟩ := List.forall_mem_cons.mp h
    obtain ⟨hblank, hbreak⟩ := not_gap_of_isKeyChar hc
    have hcolon : (c == ':') = false := beq_eq_false_iff_ne.mpr (ne_of_isKeyChar hc rfl)
    rw [List.cons_append, plainPiece]
    simp [hblank, hbreak, hcolon, ih hu]

/-- A key is a plain scalar up to its colon. -/
theorem IsKey.plain {name : Text} (h : IsKey name) (indent : Nat) (r : Text) (i l k : Nat) :
    plain false indent ⟨name ++ ':' :: ' ' :: r, i, l, k⟩ =
      some (name, ⟨':' :: ' ' :: r, i + name.length, l, k + name.length⟩, false) := by
  have hmark := h.not_atDocumentMark (':' :: ' ' :: r) i l k
  have hcomment := h.not_startsWith (c := '#') rfl (':' :: ' ' :: r)
  have hne : name.isEmpty = false := List.isEmpty_eq_false_iff.mpr h.ne_nil
  have hcolon : (isBlank ':' || isBreak ':') = false := rfl
  simp only [Yaml.plain, plainFrom, hmark, hcomment, plainPiece_key h.chars, hne, hcolon,
    Place.skip_append, Bool.or_self, Bool.false_eq_true, if_false]
  rfl

/-- The state at the start of a line, in front of the first key of all or behind other lines. -/
def atLine : Option (List Token) → Place → Lexer
  | none, p => ⟨p, [], -1, [], true, none, []⟩
  | some ts, p => inside ts true p

/-- The tokens in front of those of the line. -/
def opened : Option (List Token) → List Token
  | none => [.blockMapping]
  | some ts => ts

/-- The state behind a key whose colon comes next. -/
def behindKey (s : Lexer) (name : Text) (p : Place) : Lexer :=
  { s with
    place := p, tokens := s.tokens ++ [.scalar .plain name], keyAllowed := false
    current := some ⟨s.place, s.tokens.length, s.indent == 0⟩ }

section Key

variable {name : Text} (h : IsKey name) (before : Option (List Token)) (r : Text) (i l : Nat)

include h in
theorem token_key :
    (atLine before ⟨name ++ ':' :: ' ' :: r, i, l, 0⟩).token =
      some (behindKey (atLine before ⟨name ++ ':' :: ' ' :: r, i, l, 0⟩) name
        ⟨':' :: ' ' :: r, i + name.length, l, name.length⟩) := by
  have hmark := h.not_atDocumentMark (':' :: ' ' :: r) i l 0
  have hplain (indent : Nat) := h.plain indent r i l 0
  obtain ⟨c, u, hcu⟩ := List.exists_cons_of_ne_nil h.ne_nil
  have hrest : name ++ ':' :: ' ' :: r = c :: (u ++ ':' :: ' ' :: r) := by
    rw [hcu, List.cons_append]
  have hc :=
    startsPlain_of_isKeyChar (h.chars c (hcu ▸ List.mem_cons_self ..)) (u ++ ':' :: ' ' :: r)
  cases before with
  | none =>
    rw [token_eq_plainScalar hrest rfl hmark hc]
    simp [plainScalar, saveKey, dropKey, atLine, behindKey, inFlow, emit, hplain]
  | some ts =>
    rw [token_eq_plainScalar hrest rfl hmark hc]
    simp [plainScalar, saveKey, dropKey, atLine, inside, behindKey, inFlow, emit, hplain]

include h in
/-- Nothing is passed over in front of a colon, and the key is not too long. -/
theorem advance_behindKey :
    (behindKey (atLine before ⟨name ++ ':' :: ' ' :: r, i, l, 0⟩) name
        ⟨':' :: ' ' :: r, i + name.length, l, name.length⟩).advance =
      some (behindKey (atLine before ⟨name ++ ':' :: ' ' :: r, i, l, 0⟩) name
        ⟨':' :: ' ' :: r, i + name.length, l, name.length⟩) := by
  have hcolon : StartsToken (':' :: ' ' :: r) := by
    refine ⟨fun d hd => ?_, rfl⟩
    obtain rfl : ':' = d := Option.some.inj hd
    exact ⟨rfl, rfl⟩
  have hplace (fuel : Nat) := toToken_of_startsToken hcolon (i := i + name.length) (Or.inr rfl) fuel
    false false l name.length
  have hshort : ¬i + 1024 < i + name.length := by
    have hle := h.short
    omega
  have hcol : ¬(name.length : Int) < 0 := by omega
  cases before with
  | none =>
    simp [advance, atLine, behindKey, inFlow, hplace, dropStale, isStale, hshort, unroll,
      unrollFrom]
  | some ts =>
    simp [advance, atLine, inside, behindKey, inFlow, hplace, dropStale, isStale, hshort, unroll,
      unrollFrom, hcol]

/-- At its colon the key gets its token, and the first key opens the mapping. -/
theorem token_colon :
    (behindKey (atLine before ⟨name ++ ':' :: ' ' :: r, i, l, 0⟩) name
        ⟨':' :: ' ' :: r, i + name.length, l, name.length⟩).token =
      some (inside (opened before ++ [.key, .scalar .plain name, .value]) false
        ⟨' ' :: r, i + name.length + 1, l, name.length + 1⟩) := by
  cases before with
  | none =>
    simp [token, atLine, behindKey, inFlow, Place.atMark, atGap, isBlank, value, insert, roll,
      opened, inside, skip, emit, Place.skip]
  | some ts =>
    simp [token, atLine, inside, behindKey, inFlow, Place.atMark, atGap, isBlank, value, insert,
      roll, opened, skip, emit, Place.skip]

end Key

theorem run_succ {s s' s'' : Lexer} (hs : s.advance = some s') (hne : s'.place.rest ≠ [])
    (ht : s'.token = some s'') (fuel : Nat) : run (fuel + 1) s = run fuel s'' := by
  have he : s'.place.rest.isEmpty = false := List.isEmpty_eq_false_iff.mpr hne
  simp only [run, hs, ht, he, Bool.false_eq_true, if_false]

/-- The end of the text closes the mapping. -/
theorem run_end {s : Lexer} {ts : List Token} {i l : Nat}
    (hs : s.advance = some (inside ts true ⟨[], i, l, 0⟩)) (fuel : Nat) :
    run (fuel + 1) s = some (ts ++ [.blockEnd, .finish]) := by
  simp [run, hs, inside, token, finish, leave, unroll, unrollFrom, inFlow, dropKey, emit]

end Lexer

/-- An entry of a mapping: its key, the line of its value and the scalar that the line is read as.
-/
structure Entry where
  /-- The key. -/
  name : Text
  /-- The value as it is written, with the line break behind it. -/
  line : Text
  /-- How the value is written. -/
  style : Style
  /-- The value. -/
  value : Text

namespace Entry

open Lexer

/-- The entry as it is written. -/
def text (e : Entry) : Text := entryLine e.name e.line

/-- The tokens of the entry. -/
def tokens (e : Entry) : List Token :=
  [.key, .scalar .plain e.name, .value, .scalar e.style e.value]

/-- The entry is cut into its tokens. -/
structure IsCut (e : Entry) : Prop where
  key : IsKey e.name
  line : ReadsLine e.line e.style e.value

theorem text_append (e : Entry) (r : Text) :
    e.text ++ r = e.name ++ ':' :: ' ' :: (e.line ++ r) := by
  simp [text, entryLine]

theorem IsCut.startsToken {e : Entry} (he : e.IsCut) (r : Text) : StartsToken (e.text ++ r) := by
  rw [text_append]
  exact he.key.startsToken _

theorem startsToken_flatMap_text {es : List Entry} (hes : ∀ e ∈ es, e.IsCut) :
    StartsToken (es.flatMap text) := by
  cases es with
  | nil => exact startsToken_nil
  | cons e es => exact (hes e (List.mem_cons_self ..)).startsToken _

/-- A line is cut in three steps: its key, its colon and its value. -/
theorem IsCut.run_line {e : Entry} (he : e.IsCut) {r : Text} (hr : StartsToken r)
    {before : Option (List Token)} {s : Lexer} {i l : Nat}
    (hs : s.advance = some (atLine before ⟨e.text ++ r, i, l, 0⟩)) (fuel : Nat) :
    ∃ s' i' l', s'.advance = some (inside (opened before ++ e.tokens) true ⟨r, i', l', 0⟩) ∧
      run (fuel + 3) s = run fuel s' := by
  rw [text_append] at hs
  have hkey := token_key he.key before (e.line ++ r) i l
  have hbehind := advance_behindKey he.key before (e.line ++ r) i l
  have hcolon := @token_colon e.name before (e.line ++ r) i l
  have hline : StartsToken (e.line ++ r) := by
    obtain ⟨c, u, hcu⟩ := List.exists_cons_of_ne_nil he.line.ne_nil
    have h := he.line.startsToken
    rw [hcu] at h ⊢
    exact ⟨h.endsGap, h.noComment⟩
  have hspace : (inside (opened before ++ [.key, .scalar .plain e.name, .value]) false
      ⟨' ' :: (e.line ++ r), i + e.name.length + 1, l, e.name.length + 1⟩).advance =
        some (inside (opened before ++ [.key, .scalar .plain e.name, .value]) false
          ⟨e.line ++ r, i + e.name.length + 1 + 1, l, e.name.length + 1 + 1⟩) :=
    advance_inside (toToken_space hline _ _ _ _ _)
  obtain ⟨s', i', l', hvalue, hend⟩ := he.line.read r hr
    (opened before ++ [.key, .scalar .plain e.name, .value]) (i + e.name.length + 1 + 1) l
    (e.name.length + 1 + 1) (Nat.succ_pos _)
  refine ⟨s', i', l', ?_, ?_⟩
  · rw [hend, List.append_assoc]
    rfl
  · have hne : e.line ++ r ≠ [] := by simp [he.line.ne_nil]
    have hstart :
        (atLine before ⟨e.name ++ ':' :: ' ' :: (e.line ++ r), i, l, 0⟩).place.rest ≠ [] := by
      cases before <;> simp [atLine, inside, he.key.ne_nil]
    rw [run_succ hs hstart hkey, run_succ hbehind (List.cons_ne_nil _ _) hcolon,
      run_succ hspace hne hvalue]

/-- The lines of a mapping are cut into the tokens of its entries. -/
theorem run_lines {es : List Entry} (hes : ∀ e ∈ es, e.IsCut) {ts : List Token} {s : Lexer}
    {i l : Nat} (hs : s.advance = some (inside ts true ⟨es.flatMap text, i, l, 0⟩)) {fuel : Nat}
    (hf : 3 * es.length < fuel) :
    run fuel s = some (ts ++ es.flatMap tokens ++ [.blockEnd, .finish]) := by
  induction es generalizing ts s i l fuel with
  | nil =>
    obtain ⟨fuel, rfl⟩ : ∃ n, fuel = n + 1 := ⟨fuel - 1, by omega⟩
    rw [run_end hs, List.flatMap_nil, List.append_nil]
  | cons e es ih =>
    obtain ⟨he, hes⟩ := List.forall_mem_cons.mp hes
    obtain ⟨fuel, rfl⟩ : ∃ n, fuel = n + 3 :=
      ⟨fuel - 3, by rw [List.length_cons] at hf; omega⟩
    have hstart : s.advance = some (atLine (some ts) ⟨e.text ++ es.flatMap text, i, l, 0⟩) := hs
    obtain ⟨s', i', l', hs', hrun⟩ := he.run_line (startsToken_flatMap_text hes) hstart fuel
    rw [hrun, ih hes hs' (by rw [List.length_cons] at hf; omega)]
    simp only [opened, List.flatMap_cons, List.append_assoc]

/-- Every line takes more characters than steps. -/
theorem length_le_length_flatMap_text {es : List Entry} (hes : ∀ e ∈ es, e.IsCut) :
    3 * es.length ≤ (es.flatMap text).length := by
  induction es with
  | nil => exact Nat.le_refl 0
  | cons e es ih =>
    obtain ⟨he, hes⟩ := List.forall_mem_cons.mp hes
    have hname := List.length_pos_iff.mpr he.key.ne_nil
    have hrest := ih hes
    have htext := congrArg List.length (text_append e (es.flatMap text))
    rw [List.flatMap_cons, htext]
    simp only [List.length_append, List.length_cons] at hrest ⊢
    omega

/-- The text of a mapping is cut into the tokens of its entries. -/
theorem tokens_flatMap_text {e : Entry} {es : List Entry} (hes : ∀ f ∈ e :: es, f.IsCut)
    (ha : ∀ c ∈ (e :: es).flatMap text, isAllowed c = true) :
    Yaml.tokens ((e :: es).flatMap text) =
      some (.blockMapping :: (e :: es).flatMap tokens ++ [.blockEnd, .finish]) := by
  have hstart : (Lexer.start ((e :: es).flatMap text)).advance =
      some (atLine none ⟨e.text ++ es.flatMap text, 0, 0, 0⟩) := by
    have he := hes e (List.mem_cons_self ..)
    have hmark : startsWith '\ufeff' (e.text ++ es.flatMap text) = false := by
      rw [text_append]
      exact he.key.not_startsWith rfl _
    have hplace (fuel : Nat) := toToken_of_startsToken (he.startsToken (es.flatMap text))
      (i := 0) (Or.inr hmark) fuel false true 0 0
    simp [advance, Lexer.start, Place.start, inFlow, hplace, dropStale, unroll, unrollFrom, atLine]
  have hlen := length_le_length_flatMap_text hes
  obtain ⟨he, hes⟩ := List.forall_mem_cons.mp hes
  obtain ⟨s', i', l', hs', hrun⟩ := he.run_line (startsToken_flatMap_text hes) hstart
    (((e :: es).flatMap text).length - 2)
  have hfuel : ((e :: es).flatMap text).length + 1 =
      ((e :: es).flatMap text).length - 2 + 3 := by
    rw [List.length_cons] at hlen
    omega
  rw [Yaml.tokens, if_pos (List.all_eq_true.mpr ha), hfuel, hrun, run_lines hes hs']
  · rfl
  · rw [List.length_cons] at hlen
    omega

theorem length_flatMap_tokens (es : List Entry) : (es.flatMap tokens).length = 4 * es.length := by
  induction es with
  | nil => rfl
  | cons e es ih =>
    rw [List.flatMap_cons, List.length_append, ih, List.length_cons]
    simp only [tokens, List.length_cons, List.length_nil]
    omega

/-- The nodes of the entry. -/
def nodes (e : Entry) : Node × Node := (.scalar none .plain e.name, .scalar none e.style e.value)

/-- The tokens of entries are read as their nodes. -/
theorem blockEntries_tokens (handles : List (Text × Text)) (es : List Entry) (ts : List Token)
    {fuel : Nat} (hf : es.length + 2 < fuel) :
    blockEntries handles fuel ⟨es.flatMap tokens ++ .blockEnd :: ts, 0, [], []⟩ =
      some (es.map nodes, ⟨ts, 0, [], []⟩) := by
  induction es generalizing fuel with
  | nil =>
    obtain ⟨fuel, rfl⟩ : ∃ n, fuel = n + 1 := ⟨fuel - 1, by omega⟩
    rfl
  | cons e es ih =>
    obtain ⟨fuel, rfl⟩ : ∃ n, fuel = n + 3 := ⟨fuel - 3, by omega⟩
    have hpart (style : Style) (value : Text) (us : List Token) :
        blockPart handles (fuel + 2) ⟨.scalar style value :: us, 0, [], []⟩ =
          some (.scalar none style value, ⟨us, 0, [], []⟩) := rfl
    have hrest : blockEntries handles (fuel + 2) ⟨es.flatMap tokens ++ .blockEnd :: ts, 0, [], []⟩ =
        some (es.map nodes, ⟨ts, 0, [], []⟩) := by
      apply ih
      rw [List.length_cons] at hf
      omega
    have htokens : (e :: es).flatMap tokens ++ .blockEnd :: ts =
        .key :: .scalar .plain e.name :: .value :: .scalar e.style e.value ::
          (es.flatMap tokens ++ .blockEnd :: ts) := by
      simp [tokens]
    rw [htokens, blockEntries]
    simp [Progress.peek, Progress.skip, hpart, hrest, nodes]

theorem node_tokens (handles : List (Text × Text)) (es : List Entry) (ts : List Token) {fuel : Nat}
    (hf : es.length + 2 < fuel) :
    node handles (fuel + 1) true false
        ⟨.blockMapping :: (es.flatMap tokens ++ .blockEnd :: ts), 0, [], []⟩ =
      some (.mapping (es.map nodes), ⟨ts, 0, [], []⟩) :=
  congrArg (Option.map fun read : List (Node × Node) × Progress => (Node.mapping read.1, read.2))
    (blockEntries_tokens handles es ts hf)

/-- A mapping of scalars is read back from its lines. -/
theorem ofText?_flatMap_text {e : Entry} {es : List Entry} (hes : ∀ f ∈ e :: es, f.IsCut)
    (ha : ∀ c ∈ (e :: es).flatMap text, isAllowed c = true) :
    Document.ofText? ((e :: es).flatMap text) =
      some ⟨some (.mapping ((e :: es).map nodes)), []⟩ := by
  have hcontent (ts : List Token) :
      Document.ofTokens? (.blockMapping :: ts) = content usualHandles (.blockMapping :: ts) := rfl
  rw [Document.ofText?, tokens_flatMap_text hes ha, Option.bind_some, List.cons_append, hcontent,
    content, node_tokens]
  · rfl
  · have hlen := length_flatMap_tokens (e :: es)
    simp only [List.length_cons, List.length_append] at hlen ⊢
    omega

end Entry

end JobSearch.Yaml
