import JobSearch.Proofs.Yaml.Plain
import Mathlib.Data.List.Chain

/-!
# Quoted scalars that are read back

Between quotation marks every character but a space is written for itself or as an escape, and each
escape is read as its character. Between apostrophes an apostrophe is written twice, and a line
break is followed by a margin that the reader drops. Pieces and white space take turns here as they
do in plain scalars, so one relation between a text and its written form covers both kinds of
quotes.
-/

namespace JobSearch.Yaml

/-- The digits of a number in capitals. -/
def hexDigits (n : Nat) : Text := (Nat.toDigits 16 n).map Char.toUpper

theorem hexValue?_toUpper_digitChar {n : Nat} (hn : n < 16) :
    hexValue? n.digitChar.toUpper = some n := by
  have hall : ∀ n < 16, hexValue? (Nat.digitChar n).toUpper = some n := by decide
  exact hall n hn

/-- A number is the value of its digits. -/
theorem exists_mapM_hexDigits (n : Nat) : ∃ ds, (hexDigits n).mapM hexValue? = some ds ∧
    ds.foldl (fun m d => 16 * m + d) 0 = n := by
  induction n using Nat.strongRecOn with
  | ind n ih =>
    by_cases hn : n < 16
    · refine ⟨[n], ?_, by simp⟩
      rw [hexDigits, Nat.toDigits_of_lt_base hn]
      simp [hexValue?_toUpper_digitChar hn]
    · obtain ⟨ds, hd, hv⟩ := ih (n / 16) (by omega)
      have hlast := hexValue?_toUpper_digitChar (Nat.mod_lt n (by decide : 0 < 16))
      refine ⟨ds ++ [n % 16], ?_, ?_⟩
      · rw [hexDigits, Nat.toDigits_of_base_le (by decide) (by omega), List.map_append,
          ← hexDigits, List.mapM_append, hd]
        simp [hlast]
      · rw [List.foldl_append, hv]
        exact Nat.div_add_mod n 16

/-- Zeros in front of the digits do not change the value. -/
theorem exists_mapM_hexText (width n : Nat) : ∃ ds, (hexText width n).mapM hexValue? = some ds ∧
    ds.foldl (fun m d => 16 * m + d) 0 = n := by
  obtain ⟨ds, hd, hv⟩ := exists_mapM_hexDigits n
  have hzeros (k : Nat) :
      (List.replicate k '0' ++ hexDigits n).mapM hexValue? = some (List.replicate k 0 ++ ds) := by
    induction k with
    | zero => exact hd
    | succ k ih =>
      have h0 : hexValue? '0' = some 0 := rfl
      rw [List.replicate_succ, List.cons_append, List.mapM_cons, h0, ih]
      rfl
  have hfold (k : Nat) : (List.replicate k 0 ++ ds).foldl (fun m d => 16 * m + d) 0 = n := by
    induction k with
    | zero => exact hv
    | succ k ih => exact ih
  exact ⟨_, hzeros _, hfold _⟩

theorem length_hexText {width n : Nat} (hw : 0 < width) (hn : n < Nat.pow 16 width) :
    (hexText width n).length = width := by
  rw [hexText, Text.length_padZero, List.length_map]
  exact Nat.max_eq_left ((Nat.length_toDigits_le_iff (by decide) hw).mpr hn)

/-- The letters of the writer are letters of the reader. -/
theorem escapeLetter?_of_letterOf? {c d : Char} (h : letterOf? c = some d) :
    codeLength? d = none ∧ escapeLetter? d = some c := by
  unfold letterOf? at h
  split at h
  case h_16 => cases h
  all_goals
    obtain rfl := Option.some.inj h
    exact ⟨rfl, rfl⟩

theorem charOf?_toNat (c : Char) : charOf? c.toNat = some c := by
  have hv : c.toNat.isValidChar := c.valid
  rw [charOf?, if_pos hv, Char.ofNat_toNat]

/-- An escape with a number is read as the character with this number. -/
theorem escape?_hexText {letter c : Char} {width : Nat} (hl : codeLength? letter = some width)
    (hw : 0 < width) (hc : c.toNat < Nat.pow 16 width) (r : Text) :
    escape? (letter :: (hexText width c.toNat ++ r)) = some (c, width + 1) := by
  obtain ⟨ds, hd, hv⟩ := exists_mapM_hexText width c.toNat
  have hlen := length_hexText hw hc
  have hlong : ¬(hexText width c.toNat ++ r).length < width := by
    rw [List.length_append, hlen]
    omega
  have htake : (hexText width c.toNat ++ r).take width = hexText width c.toNat := by
    rw [List.take_append_of_le_length (Nat.le_of_eq hlen.symm),
      List.take_of_length_le (Nat.le_of_eq hlen)]
  simp only [escape?, hl, hlong, if_false, htake, hd, hv, charOf?_toNat, Option.map_some]

/-- A character between quotation marks stands for itself, and is no mark then, or it is escaped,
and the escape is read as the character. -/
theorem escapeChar_cases (c : Char) :
    (escapeChar c = [c] ∧ isPrintable c = true ∧ isBreak c = false ∧ c ≠ '"' ∧ c ≠ '\\') ∨
      ∃ d w, escapeChar c = '\\' :: d :: w ∧ isBreak d = false ∧
        ∀ r, escape? (d :: (w ++ r)) = some (c, w.length + 1) := by
  unfold escapeChar
  split
  · next h =>
    simp only [Bool.and_eq_true, Bool.not_eq_true', bne_iff_ne] at h
    exact Or.inl ⟨rfl, h.1.1.1, h.1.1.2, h.1.2, h.2⟩
  · right
    split
    · next d h =>
      obtain ⟨hl, hd⟩ := escapeLetter?_of_letterOf? h
      refine ⟨d, [], rfl, ?_, fun r => ?_⟩
      · unfold letterOf? at h
        split at h
        case h_16 => cases h
        all_goals
          obtain rfl := Option.some.inj h
          rfl
      · simp only [escape?, hl, hd, Option.map_some, List.length_nil]
    · have hmax : c.toNat < Nat.pow 16 8 := c.val.toNat_lt
      have hcode {letter : Char} {width : Nat} (hl : codeLength? letter = some width)
          (hw : 0 < width) (hc : c.toNat < Nat.pow 16 width) (r : Text) :
          escape? (letter :: (hexText width c.toNat ++ r)) =
            some (c, (hexText width c.toNat).length + 1) := by
        rw [escape?_hexText hl hw hc, length_hexText hw hc]
      dsimp only
      split
      · next hc => exact ⟨'x', _, rfl, rfl, hcode rfl (by decide) (Nat.lt_succ_of_le hc)⟩
      · split
        · next hc => exact ⟨'u', _, rfl, rfl, hcode rfl (by decide) (Nat.lt_succ_of_le hc)⟩
        · exact ⟨'U', _, rfl, rfl, hcode rfl (by decide) hmax⟩

/-- What is written for the characters of a piece: it starts with no white space, and the reader
takes it as the character. -/
structure ReadsPiece (quote : Char) (isGap : Char → Bool) (written : Char → Text) : Prop where
  ne_nil : ∀ c, isGap c = false → written c ≠ []
  endsGap : ∀ c, isGap c = false → EndsGap (written c)
  read : ∀ c, isGap c = false → ∀ (fuel : Nat) (r : Text) (i l k : Nat),
    quotedPiece quote (fuel + 1) ⟨written c ++ r, i, l, k⟩ =
      (quotedPiece quote fuel ⟨r, i + (written c).length, l, k + (written c).length⟩).map
        fun (t, e, q) => (c :: t, e, q)

/-- A piece stops here. -/
def StopsPiece (quote : Char) (r : Text) : Prop :=
  ∀ fuel i l k, quotedPiece quote (fuel + 1) ⟨r, i, l, k⟩ = some ([], .stop, ⟨r, i, l, k⟩)

/-- What is written for a gap: it starts with white space, and the reader takes it as the gap and
does not stop at the start of a line. -/
structure ReadsGap (g written : Text) : Prop where
  ne_nil : written ≠ []
  atGap : atGap written = true
  read : ∀ r, EndsGap r → ∀ i l k, 0 < k → ∃ v i' l' k', 0 < k' ∧ v.value = g ∧
    gap none ((written ++ r).length + 1) Gap.empty ⟨written ++ r, i, l, k⟩ =
      some (v, ⟨r, i', l', k'⟩)

/-- What is written for a text between quotes, piece by piece. -/
inductive Written (quote : Char) (isGap : Char → Bool) (written : Char → Text) : Text → Text → Prop
  /-- The last piece. -/
  | piece (w : Text) : (∀ c ∈ w, isGap c = false) →
    Written quote isGap written w (w.flatMap written)
  /-- A piece and the gap behind it. -/
  | cut (w g v t b : Text) : (∀ c ∈ w, isGap c = false) → ReadsGap g v → EndsGap b →
    Written quote isGap written t b →
    Written quote isGap written (w ++ (g ++ t)) (w.flatMap written ++ (v ++ b))

section Reading

variable {quote : Char} {isGap : Char → Bool} {written : Char → Text}

/-- A piece is read up to where it stops. -/
theorem ReadsPiece.piece (h : ReadsPiece quote isGap written) {w r : Text}
    (hw : ∀ c ∈ w, isGap c = false) (hr : StopsPiece quote r) {fuel : Nat} (hf : w.length < fuel)
    (i l k : Nat) :
    quotedPiece quote fuel ⟨w.flatMap written ++ r, i, l, k⟩ =
      some (w, .stop, ⟨r, i + (w.flatMap written).length, l, k + (w.flatMap written).length⟩) := by
  induction w generalizing fuel i k with
  | nil =>
    obtain ⟨fuel, rfl⟩ : ∃ n, fuel = n + 1 := ⟨fuel - 1, by omega⟩
    exact hr fuel i l k
  | cons c w ih =>
    obtain ⟨fuel, rfl⟩ : ∃ n, fuel = n + 1 := ⟨fuel - 1, by omega⟩
    obtain ⟨hc, hw⟩ := List.forall_mem_cons.mp hw
    rw [List.flatMap_cons, List.append_assoc, h.read c hc, ih hw (Nat.lt_of_succ_lt_succ hf)]
    simp only [Option.map_some, List.length_append, Nat.add_assoc]

theorem ReadsPiece.length_le (h : ReadsPiece quote isGap written) {w : Text}
    (hw : ∀ c ∈ w, isGap c = false) : w.length ≤ (w.flatMap written).length := by
  induction w with
  | nil => exact Nat.le_refl 0
  | cons c w ih =>
    obtain ⟨hc, hw⟩ := List.forall_mem_cons.mp hw
    have hpos := List.length_pos_iff.mpr (h.ne_nil c hc)
    have hle := ih hw
    rw [List.flatMap_cons, List.length_append, List.length_cons]
    omega

/-- A piece stops at white space. -/
theorem stopsPiece_of_atGap {r : Text} (hne : r ≠ []) (hr : atGap r = true) :
    StopsPiece quote r := by
  obtain ⟨c, u, rfl⟩ := List.exists_cons_of_ne_nil hne
  have hc : (isBlank c || isBreak c) = true := hr
  intro fuel i l k
  simp only [quotedPiece, hc, if_true]

/-- A scalar goes on with a piece, and either the closing quote or a gap is behind it. -/
theorem ReadsPiece.quotedFrom (h : ReadsPiece quote isGap written) {w r : Text}
    (hw : ∀ c ∈ w, isGap c = false) (hr : StopsPiece quote r) (hne : r ≠ []) (fuel : Nat)
    (before : Text) (i l : Nat) {k : Nat} (hk : 0 < k) :
    quotedFrom quote (fuel + 1) before ⟨w.flatMap written ++ r, i, l, k⟩ =
      let p : Place := ⟨r, i + (w.flatMap written).length, l, k + (w.flatMap written).length⟩
      if startsWith quote r then some (before ++ w, p.skip 1)
      else (gap none (r.length + 1) Gap.empty p).bind fun (g, p) =>
        Yaml.quotedFrom quote fuel (before ++ w ++ g.value) p := by
  have hmark : (⟨w.flatMap written ++ r, i, l, k⟩ : Place).atDocumentMark = false :=
    Place.not_atDocumentMark hk
  have hrest : (w.flatMap written ++ r).isEmpty = false :=
    List.isEmpty_eq_false_iff.mpr (by simp [hne])
  have hlen : w.length < (w.flatMap written ++ r).length + 1 := by
    have hle := h.length_le hw
    rw [List.length_append]
    omega
  simp only [Yaml.quotedFrom, hmark, hrest, h.piece hw hr hlen, Bool.or_self, Bool.false_eq_true,
    if_false, reduceCtorEq]
  split
  · rfl
  · cases gap none (r.length + 1) Gap.empty
      ⟨r, i + (w.flatMap written).length, l, k + (w.flatMap written).length⟩ <;> rfl

/-- A text between quotes is read up to the closing quote. -/
theorem Written.quotedFrom (h : ReadsPiece quote isGap written) {t b : Text}
    (hb : Written quote isGap written t b) (hquote : isBlank quote = false ∧ isBreak quote = false)
    {r : Text} (hr : StopsPiece quote (quote :: r)) {fuel : Nat} (hf : b.length < fuel)
    (before : Text) (i l : Nat) {k : Nat} (hk : 0 < k) :
    ∃ i' l' k', quotedFrom quote fuel before ⟨b ++ quote :: r, i, l, k⟩ =
      some (before ++ t, ⟨r, i', l', k'⟩) ∧ 0 < k' := by
  induction hb generalizing fuel before i l k with
  | piece w hw =>
    obtain ⟨fuel, rfl⟩ : ∃ n, fuel = n + 1 := ⟨fuel - 1, by omega⟩
    have hclose : startsWith quote (quote :: r) = true := by simp [startsWith]
    rw [h.quotedFrom hw hr (List.cons_ne_nil _ _) fuel before i l hk]
    simp only [hclose, if_true, Place.skip]
    exact ⟨_, _, _, rfl, by omega⟩
  | cut w g v t b hw hg hb _ ih =>
    obtain ⟨fuel, rfl⟩ : ∃ n, fuel = n + 1 := ⟨fuel - 1, by omega⟩
    obtain ⟨d, v, rfl⟩ := List.exists_cons_of_ne_nil hg.ne_nil
    have hd : (isBlank d || isBreak d) = true := hg.atGap
    have hopen : startsWith quote (d :: v ++ (b ++ quote :: r)) = false := by
      have hdq : d ≠ quote := by
        rintro rfl
        rw [hquote.1, hquote.2] at hd
        cases hd
      simpa [startsWith] using hdq
    have hends : EndsGap (b ++ quote :: r) := by
      cases b with
      | nil =>
        intro e he
        obtain rfl : quote = e := Option.some.inj he
        exact hquote
      | cons e b => exact hb
    have hstop : StopsPiece quote (d :: v ++ (b ++ quote :: r)) :=
      stopsPiece_of_atGap (List.cons_ne_nil _ _) hd
    obtain ⟨x, i', l', k', hk', rfl, hgap⟩ := hg.read _ hends (i + (w.flatMap written).length) l
      (k + (w.flatMap written).length) (by omega)
    rw [List.append_assoc, List.append_assoc,
      h.quotedFrom hw hstop (List.cons_ne_nil _ _) fuel before i l hk]
    simp only [hopen, hgap, Bool.false_eq_true, if_false, Option.bind_some]
    have hlen : b.length < fuel := by
      simp only [List.length_append, List.length_cons] at hf
      omega
    obtain ⟨i'', l'', k'', hq, hk''⟩ := ih hlen (before ++ w ++ x.value) i' l' hk'
    exact ⟨i'', l'', k'', by rw [hq]; simp only [List.append_assoc], hk''⟩

end Reading

theorem EndsGap.append {t : Text} (ht : EndsGap t) (hne : t ≠ []) (r : Text) :
    EndsGap (t ++ r) := by
  obtain ⟨c, u, rfl⟩ := List.exists_cons_of_ne_nil hne
  exact ht

/-- What is written for a text that starts with no gap starts with no white space. -/
theorem ReadsPiece.endsGap_flatMap {quote : Char} {isGap : Char → Bool} {written : Char → Text}
    (h : ReadsPiece quote isGap written) {t : Text} (ht : ∀ c ∈ t.head?, isGap c = false) :
    EndsGap (t.flatMap written) := by
  cases t with
  | nil => exact fun c hc => by cases hc
  | cons c t =>
    rw [List.flatMap_cons]
    exact (h.endsGap c (ht c rfl)).append (h.ne_nil c (ht c rfl)) _

/-- Characters that stand for themselves are written as they are. -/
theorem flatMap_eq_self {written : Char → Text} {t : Text} (ht : ∀ c ∈ t, written c = [c]) :
    t.flatMap written = t :=
  (List.flatMap_congr ht).trans (List.flatMap_singleton' t)

/-- Blanks are written as they are. -/
theorem readsGap_blanks {g : Text} (hne : g ≠ []) (hg : ∀ c ∈ g, isBlank c = true) :
    ReadsGap g g := by
  refine ⟨hne, ?_, fun r hr i l k hk => ?_⟩
  · obtain ⟨c, u, rfl⟩ := List.exists_cons_of_ne_nil hne
    simp only [Yaml.atGap, hg c (List.mem_cons_self ..), Bool.true_or]
  · have hlen : (g ++ r).length + 1 = r.length + 1 + g.length := by
      rw [List.length_append]
      omega
    refine ⟨⟨g, none, []⟩, i + g.length, l, k + g.length, by omega, rfl, ?_⟩
    rw [hlen, Gap.empty, gap_blanks hg]
    exact gap_end hr none r.length _ _ _ _

theorem not_isBlank_of_isPrintable {c : Char} (hc : isPrintable c = true) (hs : c ≠ ' ') :
    isBlank c = false := by
  have ht : c ≠ '\t' := by
    rintro rfl
    cases hc
  simp [isBlank, hs, ht]

theorem readsPiece_escapeChar : ReadsPiece '"' (fun c => c == ' ') escapeChar where
  ne_nil c _ := by
    obtain ⟨h, -⟩ | ⟨d, w, h, -⟩ := escapeChar_cases c <;> rw [h] <;> exact List.cons_ne_nil _ _
  endsGap c hc := by
    obtain ⟨h, hp, hb, -⟩ | ⟨d, w, h, -⟩ := escapeChar_cases c
    · rw [h]
      intro e he
      obtain rfl : c = e := Option.some.inj he
      exact ⟨not_isBlank_of_isPrintable hp (by simpa using hc), hb⟩
    · rw [h]
      intro e he
      obtain rfl : '\\' = e := Option.some.inj he
      exact ⟨rfl, rfl⟩
  read c hc fuel r i l k := by
    obtain ⟨h, hp, hb, hq, hs⟩ | ⟨d, w, h, hb, he⟩ := escapeChar_cases c
    · have hblank := not_isBlank_of_isPrintable hp (by simpa using hc)
      simp [h, quotedPiece, hblank, hb, hq, hs, Place.skip]
    · have hblank : isBlank '\\' = false := rfl
      have hbreak : isBreak '\\' = false := rfl
      have hescape := he r
      simp [h, quotedPiece, hblank, hbreak, hb, hescape, Place.skip]

/-- Spaces stay, and all other characters are written for themselves or escaped. -/
theorem written_escapeChar (t : Text) :
    Written '"' (fun c => c == ' ') escapeChar t (t.flatMap escapeChar) := by
  induction t using induction_on_gaps (fun c => c == ' ') with
  | piece w hw => exact .piece w hw
  | cut w g u hw hne hg hu ih =>
    have hspaces : g.flatMap escapeChar = g :=
      flatMap_eq_self fun c hc => by
        obtain rfl : c = ' ' := by simpa using hg c hc
        rfl
    have hblank : ∀ c ∈ g, isBlank c = true := by
      intro c hc
      obtain rfl : c = ' ' := by simpa using hg c hc
      rfl
    rw [List.flatMap_append, List.flatMap_append, hspaces]
    exact .cut w g g u _ hw (readsGap_blanks hne hblank)
      (readsPiece_escapeChar.endsGap_flatMap hu) ih

/-- A text between quotation marks is read back. -/
theorem quoted_doubleQuoted (t r : Text) (i l k : Nat) :
    ∃ i' l' k', quoted ⟨doubleQuoted t ++ r, i, l, k⟩ = some (t, ⟨r, i', l', k'⟩) ∧ 0 < k' := by
  have hstop : StopsPiece '"' ('"' :: r) := fun fuel i l k => rfl
  have hlen : (t.flatMap escapeChar).length < (t.flatMap escapeChar ++ '"' :: r).length + 1 := by
    rw [List.length_append]
    omega
  have h := (written_escapeChar t).quotedFrom readsPiece_escapeChar ⟨rfl, rfl⟩ hstop hlen []
    (i + 1) l (Nat.succ_pos k)
  simpa [doubleQuoted, quoted, Place.skip] using h

/-- An apostrophe is written twice. -/
def doubledApostrophe (c : Char) : Text := if c == '\x27' then ['\x27', '\x27'] else [c]

theorem readsPiece_doubledApostrophe :
    ReadsPiece '\x27' (fun c => isBlank c || isBreak c) doubledApostrophe where
  ne_nil c _ := by
    unfold doubledApostrophe
    split <;> exact List.cons_ne_nil _ _
  endsGap c hc := by
    rw [Bool.or_eq_false_iff] at hc
    intro e he
    unfold doubledApostrophe at he
    split at he
    · obtain rfl : '\x27' = e := Option.some.inj he
      exact ⟨rfl, rfl⟩
    · obtain rfl : c = e := Option.some.inj he
      exact hc
  read c hc fuel r i l k := by
    unfold doubledApostrophe
    split
    · next h =>
      have hc' : c = '\x27' := by simpa using h
      subst hc'
      rfl
    · next h =>
      have hq : (c == '\x27') = false := by simpa using h
      simp [quotedPiece, hc, hq, Place.skip]

/-- A separator of lines that is kept. -/
def IsSeparator (c : Char) : Prop := c = '\u2028' ∨ c = '\u2029'

theorem IsSeparator.isBreak {c : Char} (hc : IsSeparator c) : isBreak c = true := by
  obtain rfl | rfl := hc <;> rfl

/-- Separators behind a separator are kept. -/
theorem gap_separators {s : Text} (hs : ∀ c ∈ s, IsSeparator c) (fuel : Nat)
    (first further r : Text) (i l k : Nat) : ∃ i' l' k',
    gap none (fuel + s.length) ⟨[], some first, further⟩ ⟨s ++ r, i, l, k⟩ =
      gap none fuel ⟨[], some first, further ++ s⟩ ⟨r, i', l', k'⟩ := by
  induction s generalizing further i l k with
  | nil => exact ⟨i, l, k, by rw [List.append_nil]; rfl⟩
  | cons c s ih =>
    obtain ⟨hc, hs⟩ := List.forall_mem_cons.mp hs
    obtain ⟨i', l', k', h⟩ := ih hs (further ++ [c]) (i + 1) (l + 1) 0
    refine ⟨i', l', k', ?_⟩
    have hstep :
        gap none (fuel + (c :: s).length) ⟨[], some first, further⟩ ⟨c :: s ++ r, i, l, k⟩ =
          gap none (fuel + s.length) ⟨[], some first, further ++ [c]⟩
            ⟨s ++ r, i + 1, l + 1, 0⟩ := by
      obtain rfl | rfl := hc <;> rfl
    rw [hstep, h, List.append_assoc, List.singleton_append]

/-- Separators are written with the margin behind them, which is not read. -/
theorem readsGap_separators {g : Text} (hne : g ≠ []) (hg : ∀ c ∈ g, IsSeparator c) :
    ReadsGap g (g ++ margin) := by
  obtain ⟨c, s, rfl⟩ := List.exists_cons_of_ne_nil hne
  obtain ⟨hc, hs⟩ := List.forall_mem_cons.mp hg
  refine ⟨by simp, ?_, fun r hr i l k hk => ?_⟩
  · rw [List.cons_append]
    simp only [Yaml.atGap, hc.isBreak, Bool.or_true]
  · obtain ⟨i', l', k', h⟩ :=
      gap_separators hs (r.length + 1 + margin.length) [c] [] (margin ++ r) (i + 1) (l + 1) 0
    have hlen : (c :: s ++ margin ++ r).length + 1 =
        r.length + 1 + margin.length + s.length + 1 := by
      simp only [List.length_append, List.length_cons]
      omega
    have hstep : gap none ((c :: s ++ margin ++ r).length + 1) Gap.empty
        ⟨c :: s ++ margin ++ r, i, l, k⟩ =
          gap none (r.length + 1 + margin.length + s.length) ⟨[], some [c], []⟩
            ⟨s ++ (margin ++ r), i + 1, l + 1, 0⟩ := by
      rw [hlen, List.append_assoc]
      obtain rfl | rfl := hc <;> rfl
    refine ⟨⟨[], some [c], s⟩, i' + 2, l', k' + 2, by omega, ?_, ?_⟩
    · obtain rfl | rfl := hc <;> rfl
    · rw [hstep, h]
      exact gap_end hr none r.length _ _ _ _

/-- Of two neighbours no one is a space and the other a line break. -/
def KeepApart (c d : Char) : Prop :=
  ¬(c = ' ' ∧ isBreak d = true) ∧ ¬(isBreak c = true ∧ d = ' ')

/-- The text can be written between apostrophes on its lines: all its characters can be seen, it has
no line feed, and no space stands beside a line break. -/
structure IsApostropheText (t : Text) : Prop where
  printable : ∀ c ∈ t, isPrintable c = true
  noFeed : '\n' ∉ t
  apart : t.IsChain KeepApart

theorem isChain_keepApart {t : Text} (hb : hasSpaceBeforeBreak t = false)
    (ha : hasSpaceAfterBreak t = false) : t.IsChain KeepApart := by
  induction t with
  | nil => exact .nil
  | cons c t ih =>
    cases t with
    | nil => exact .singleton c
    | cons d t =>
      rw [hasSpaceBeforeBreak, Bool.or_eq_false_iff] at hb
      rw [hasSpaceAfterBreak, Bool.or_eq_false_iff] at ha
      refine .cons_cons ⟨?_, ?_⟩ (ih hb.2 ha.2)
      · simpa using hb.1
      · simpa using ha.1

theorem isChain_keepApart_of_not_mem {t : Text} (ht : ' ' ∉ t) : t.IsChain KeepApart := by
  induction t with
  | nil => exact .nil
  | cons c t ih =>
    rw [List.mem_cons, not_or] at ht
    refine List.isChain_cons.mpr ⟨fun d hd => ⟨fun h => ht.1 h.1.symm, fun h => ?_⟩, ih ht.2⟩
    rw [h.2] at hd
    exact ht.2 (List.mem_of_mem_head? hd)

/-- White space that can be seen is a space, a separator or a line feed. -/
theorem eq_space_or_isSeparator {c : Char} (hp : isPrintable c = true) (hn : c ≠ '\n')
    (hc : (isBlank c || isBreak c) = true) : c = ' ' ∨ IsSeparator c := by
  simp only [isBlank, isBreak, Bool.or_eq_true, beq_iff_eq] at hc
  obtain (rfl | rfl) | (((rfl | rfl) | rfl) | rfl) | rfl := hc
  · exact Or.inl rfl
  · cases hp
  · exact absurd rfl hn
  · cases hp
  · cases hp
  · exact Or.inr (Or.inl rfl)
  · exact Or.inr (Or.inr rfl)

/-- White space whose neighbours are kept apart is a run of spaces or a run of separators. -/
theorem gap_cases {g : Text} (hg : ∀ c ∈ g, c = ' ' ∨ IsSeparator c) (hn : g.IsChain KeepApart) :
    (∀ c ∈ g, c = ' ') ∨ ∀ c ∈ g, IsSeparator c := by
  induction g with
  | nil => exact Or.inl (by simp)
  | cons c g ih =>
    obtain ⟨hc, hg⟩ := List.forall_mem_cons.mp hg
    obtain ⟨hnext, hn⟩ := List.isChain_cons.mp hn
    cases g with
    | nil => exact hc.imp List.forall_mem_singleton.mpr List.forall_mem_singleton.mpr
    | cons d g =>
      have hcd := hnext d rfl
      obtain h | h := ih hg hn
      · obtain rfl := h d (List.mem_cons_self ..)
        have hspace : c = ' ' := hc.resolve_right fun hs => hcd.2 ⟨hs.isBreak, rfl⟩
        exact Or.inl (List.forall_mem_cons.mpr ⟨hspace, h⟩)
      · have hd := (h d (List.mem_cons_self ..)).isBreak
        have hs : IsSeparator c := hc.resolve_left fun he => hcd.1 ⟨he, hd⟩
        exact Or.inr (List.forall_mem_cons.mpr ⟨hs, h⟩)

theorem singleQuotedBody_append {x : Text} (hx : ∀ c ∈ x, isBreak c = false) (y : Text) :
    singleQuotedBody false (x ++ y) = x.flatMap doubledApostrophe ++ singleQuotedBody false y := by
  induction x with
  | nil => rfl
  | cons c x ih =>
    obtain ⟨hc, hx⟩ := List.forall_mem_cons.mp hx
    simp only [List.cons_append, singleQuotedBody, hc, Bool.false_eq_true, if_false, Bool.false_and,
      List.nil_append, ih hx, List.flatMap_cons, doubledApostrophe, List.append_assoc]

theorem singleQuotedBody_breaks {g : Text} (hne : g ≠ []) (hg : ∀ c ∈ g, isBreak c = true)
    (b : Bool) (y : Text) : singleQuotedBody b (g ++ y) = g ++ singleQuotedBody true y := by
  induction g generalizing b with
  | nil => exact absurd rfl hne
  | cons c g ih =>
    obtain ⟨hc, hg⟩ := List.forall_mem_cons.mp hg
    have hrest : singleQuotedBody true (g ++ y) = g ++ singleQuotedBody true y := by
      cases g with
      | nil => rfl
      | cons d g => exact ih (List.cons_ne_nil _ _) hg true
    simp only [List.cons_append, singleQuotedBody, hc, if_true, hrest]

/-- Behind a line break the margin comes first. -/
theorem singleQuotedBody_margin {u : Text}
    (hu : ∀ c ∈ u.head?, (isBlank c || isBreak c) = false) :
    singleQuotedBody true u = margin ++ singleQuotedBody false u := by
  cases u with
  | nil => rfl
  | cons c u =>
    have hc := hu c rfl
    have hs : (c == ' ') = false := by
      rw [beq_eq_false_iff_ne]
      rintro rfl
      cases hc
    rw [Bool.or_eq_false_iff] at hc
    simp [singleQuotedBody, hc.2, hs, bne]

theorem endsGap_singleQuotedBody {u : Text}
    (hu : ∀ c ∈ u.head?, (isBlank c || isBreak c) = false) :
    EndsGap (singleQuotedBody false u) := by
  cases u with
  | nil => exact fun c hc => by cases hc
  | cons c u =>
    have hc := hu c rfl
    have hb : ∀ d ∈ [c], isBreak d = false :=
      List.forall_mem_singleton.mpr (Bool.or_eq_false_iff.mp hc).2
    have hbody := singleQuotedBody_append hb u
    rw [List.flatMap_singleton, List.singleton_append] at hbody
    rw [hbody]
    exact (readsPiece_doubledApostrophe.endsGap c hc).append
      (readsPiece_doubledApostrophe.ne_nil c hc) _

/-- Pieces are written with their apostrophes doubled, spaces as they are and separators with the
margin behind them. -/
theorem IsApostropheText.written {t : Text} (ht : IsApostropheText t) :
    Written '\x27' (fun c => isBlank c || isBreak c) doubledApostrophe t
      (singleQuotedBody false t) := by
  induction t using induction_on_gaps (fun c => isBlank c || isBreak c) with
  | piece w hw =>
    have hbody := singleQuotedBody_append (fun c hc => (Bool.or_eq_false_iff.mp (hw c hc)).2) []
    rw [List.append_nil] at hbody
    rw [hbody]
    simpa [singleQuotedBody] using Written.piece w hw
  | cut w g u hw hne hg hu ih =>
    have hchar : ∀ c ∈ g, c = ' ' ∨ IsSeparator c := by
      intro c hc
      have hmem : c ∈ w ++ (g ++ u) := by simp [hc]
      refine eq_space_or_isSeparator (ht.printable c hmem) ?_ (hg c hc)
      rintro rfl
      exact ht.noFeed hmem
    have hgu := ht.apart.right_of_append
    have hback : Written '\x27' (fun c => isBlank c || isBreak c) doubledApostrophe u
        (singleQuotedBody false u) :=
      ih ⟨fun c hc => ht.printable c (by simp [hc]), fun h => ht.noFeed (by simp [h]),
        hgu.right_of_append⟩
    have hends := endsGap_singleQuotedBody hu
    rw [singleQuotedBody_append fun c hc => (Bool.or_eq_false_iff.mp (hw c hc)).2]
    obtain h | h := gap_cases hchar hgu.left_of_append
    · have hself : g.flatMap doubledApostrophe = g :=
        flatMap_eq_self fun c hc => by rw [h c hc]; rfl
      rw [singleQuotedBody_append fun c hc => by rw [h c hc]; rfl, hself]
      exact .cut w g g u _ hw (readsGap_blanks hne fun c hc => by rw [h c hc]; rfl) hends hback
    · rw [singleQuotedBody_breaks hne fun c hc => (h c hc).isBreak, singleQuotedBody_margin hu,
        ← List.append_assoc g]
      exact .cut w g (g ++ margin) u _ hw (readsGap_separators hne h) hends hback

/-- A text between apostrophes is read back, unless another apostrophe follows. -/
theorem IsApostropheText.quoted {t : Text} (ht : IsApostropheText t) {r : Text}
    (hr : startsWith '\x27' r = false) (i l k : Nat) :
    ∃ i' l' k', quoted ⟨singleQuoted t ++ r, i, l, k⟩ = some (t, ⟨r, i', l', k'⟩) ∧ 0 < k' := by
  have hstop : StopsPiece '\x27' ('\x27' :: r) := by
    intro fuel i l k
    simp [quotedPiece, isBlank, isBreak, hr]
  have hlen : (singleQuotedBody false t).length <
      (singleQuotedBody false t ++ '\x27' :: r).length + 1 := by
    rw [List.length_append]
    omega
  have h := ht.written.quotedFrom readsPiece_doubledApostrophe ⟨rfl, rfl⟩ hstop hlen [] (i + 1) l
    (Nat.succ_pos k)
  simpa [singleQuoted, Yaml.quoted, Place.skip] using h

end JobSearch.Yaml
