import JobSearch.Proofs.Text.Runs
import JobSearch.Proofs.Yaml.Mapping

/-!
# Texts that are read back from their lines

The writer chooses between three styles for a text without line feeds: plain where nothing in the
text could be taken for something else, between apostrophes where all its characters can be seen,
and between quotation marks otherwise. In each of them the reader comes back with the text.
-/

namespace JobSearch.Yaml

open Lexer

theorem isAllowed_of_isPrintable {c : Char} (hc : isPrintable c = true) : isAllowed c = true := by
  have hv : c.toNat < 0xD800 ∨ (0xDFFF < c.toNat ∧ c.toNat < 0x110000) := c.valid
  simp only [isPrintable, isAllowed, Bool.or_eq_true, Bool.and_eq_true, beq_iff_eq, bne_iff_ne,
    decide_eq_true_eq] at hc ⊢
  omega

/-- A character of the ASCII that can be seen. -/
def isAscii (c : Char) : Bool := 0x20 ≤ c.toNat && c.toNat ≤ 0x7E

theorem isAllowed_of_isAscii {c : Char} (hc : isAscii c = true) : isAllowed c = true := by
  simp only [isAscii, isAllowed, Bool.or_eq_true, Bool.and_eq_true, decide_eq_true_eq] at hc ⊢
  omega

theorem isPrintable_of_isAscii {c : Char} (hc : isAscii c = true) : isPrintable c = true := by
  simp only [isAscii, isPrintable, Bool.or_eq_true, Bool.and_eq_true, decide_eq_true_eq] at hc ⊢
  exact Or.inl (Or.inl (Or.inr hc))

theorem isAscii_of_isKeyChar {c : Char} (hc : isKeyChar c = true) : isAscii c = true := by
  obtain hc | hc := Bool.or_eq_true_iff.mp hc
  · simp only [isAscii, Bool.and_eq_true, decide_eq_true_eq]
    obtain hletter | hdigit := Bool.or_eq_true_iff.mp hc
    · have hrange := CharClass.toNat_of_isAlpha hletter
      omega
    · have hrange := Text.toNat_of_isDigit hdigit
      omega
  · rw [eq_of_beq hc]
    rfl

theorem isAscii_of_mem_hexDigits {n : Nat} {c : Char} (hc : c ∈ hexDigits n) :
    isAscii c = true := by
  have hall : ∀ n < 16, isAscii (Nat.digitChar n).toUpper = true := by decide
  induction n using Nat.strongRecOn with
  | ind n ih =>
    rw [hexDigits] at hc
    by_cases hn : n < 16
    · rw [Nat.toDigits_of_lt_base hn, List.map_singleton, List.mem_singleton] at hc
      rw [hc]
      exact hall n hn
    · rw [Nat.toDigits_of_base_le (by decide) (by omega), List.map_append, ← hexDigits,
        List.map_singleton] at hc
      rcases List.mem_append.mp hc with hc | hc
      · exact ih (n / 16) (by omega) hc
      · rw [List.mem_singleton.mp hc]
        exact hall _ (Nat.mod_lt n (by decide))

theorem isAscii_of_mem_hexText {width n : Nat} {c : Char} (hc : c ∈ hexText width n) :
    isAscii c = true := by
  rcases List.mem_append.mp hc with hc | hc
  · rw [(List.mem_replicate.mp hc).2]
    rfl
  · exact isAscii_of_mem_hexDigits hc

theorem isAscii_of_letterOf? {c d : Char} (h : letterOf? c = some d) : isAscii d = true := by
  unfold letterOf? at h
  split at h
  case h_16 => cases h
  all_goals
    obtain rfl := Option.some.inj h
    rfl

theorem isAllowed_of_mem_escapeChar {c d : Char} (hd : d ∈ escapeChar c) : isAllowed d = true := by
  have hcode {letter : Char} {width : Nat} (hl : isAscii letter = true)
      (hd : d ∈ '\\' :: letter :: hexText width c.toNat) : isAscii d = true := by
    rcases List.mem_cons.mp hd with rfl | hd
    · rfl
    · rcases List.mem_cons.mp hd with rfl | hd
      · exact hl
      · exact isAscii_of_mem_hexText hd
  unfold escapeChar at hd
  split at hd
  · next h =>
    simp only [Bool.and_eq_true] at h
    rw [List.mem_singleton.mp hd]
    exact isAllowed_of_isPrintable h.1.1.1
  · apply isAllowed_of_isAscii
    split at hd
    · next e he =>
      rcases List.mem_cons.mp hd with rfl | hd
      · rfl
      · rw [List.mem_singleton.mp hd]
        exact isAscii_of_letterOf? he
    · dsimp only at hd
      split at hd
      · exact hcode rfl hd
      · split at hd
        · exact hcode rfl hd
        · exact hcode rfl hd

theorem mem_or_of_mem_singleQuotedBody {b : Bool} {t : Text} {c : Char}
    (hc : c ∈ singleQuotedBody b t) : c ∈ t ∨ c = ' ' ∨ c = '\x27' := by
  induction t generalizing b with
  | nil =>
    cases b with
    | false => cases hc
    | true => exact Or.inr (Or.inl (by simpa [singleQuotedBody, margin] using hc))
  | cons d t ih =>
    rw [singleQuotedBody] at hc
    split at hc
    · rcases List.mem_cons.mp hc with rfl | hc
      · exact Or.inl (List.mem_cons_self ..)
      · exact (ih hc).imp_left (List.mem_cons_of_mem d)
    · rcases List.mem_append.mp hc with hc | hc
      · rcases List.mem_append.mp hc with hc | hc
        · split at hc
          · exact Or.inr (Or.inl (by simpa [margin] using hc))
          · cases hc
        · split at hc
          · exact Or.inr (Or.inr (by simpa using hc))
          · exact Or.inl (by simpa using Or.inl hc)
      · exact (ih hc).imp_left (List.mem_cons_of_mem d)

/-- A value is written so that it is read back, in characters that may stand in a YAML text. -/
structure IsValueLine (line : Text) (style : Style) (value : Text) : Prop where
  reads : ReadsLine line style value
  allowed : ∀ c ∈ line, isAllowed c = true

theorem allowed_append_feed {t : Text} (ht : ∀ c ∈ t, isAllowed c = true) :
    ∀ c ∈ t ++ ['\n'], isAllowed c = true :=
  List.forall_mem_append.mpr ⟨ht, List.forall_mem_singleton.mpr rfl⟩

theorem hasInnerMark_eq_false {t : Text} (hc : ':' ∉ t) (hh : '#' ∉ t) (b : Bool) :
    hasInnerMark b t = false := by
  induction t generalizing b with
  | nil => rfl
  | cons c t ih =>
    rw [List.mem_cons, not_or] at hc hh
    have hcolon : (c == ':') = false := beq_eq_false_iff_ne.mpr (Ne.symm hc.1)
    have hhash : (c == '#') = false := beq_eq_false_iff_ne.mpr (Ne.symm hh.1)
    rw [hasInnerMark, hcolon, hhash, ih hc.2 hh.2]
    rfl

/-- A word of letters and digits is written plainly. -/
theorem isValueLine_word {t : Text} (hne : t ≠ []) (ht : ∀ c ∈ t, isKeyChar c = true) :
    IsValueLine (t ++ ['\n']) .plain t := by
  have hgap (c : Char) (hc : c ∈ t) := not_gap_of_isKeyChar (ht c hc)
  have hmark : hasInnerMark true t = false :=
    hasInnerMark_eq_false (fun hm => ne_of_isKeyChar (ht _ hm) rfl rfl)
      (fun hm => ne_of_isKeyChar (ht _ hm) rfl rfl) true
  have hplain : IsPlainText t :=
    ⟨hne, fun c hc => (hgap c hc).2, fun c hc => (hgap c (List.mem_of_mem_head? hc)).1,
      fun c hc => (hgap c (List.mem_of_mem_getLast? hc)).1, hmark⟩
  obtain ⟨c, u, rfl⟩ := List.exists_cons_of_ne_nil hne
  refine ⟨readsLine_plain hplain (startsPlain_of_isKeyChar (ht c (List.mem_cons_self ..)) u),
    allowed_append_feed fun d hd => isAllowed_of_isAscii (isAscii_of_isKeyChar (ht d hd))⟩

/-- A text between apostrophes. -/
theorem isValueLine_singleQuoted {t : Text} (ht : IsApostropheText t) :
    IsValueLine (singleQuoted t ++ ['\n']) .quoted t := by
  refine ⟨readsLine_quoted (Or.inr rfl) rfl fun r i l k => ?_, allowed_append_feed fun c hc => ?_⟩
  · obtain ⟨i', l', k', h, -⟩ := ht.quoted (r := '\n' :: r) rfl i l k
    exact ⟨i', l', k', h⟩
  · rw [singleQuoted, List.cons_append, List.mem_cons, List.mem_append, List.mem_singleton] at hc
    obtain rfl | hc | rfl := hc
    · rfl
    · obtain hc | rfl | rfl := mem_or_of_mem_singleQuotedBody hc
      · exact isAllowed_of_isPrintable (ht.printable c hc)
      · rfl
      · rfl
    · rfl

/-- A text between quotation marks. -/
theorem isValueLine_doubleQuoted (t : Text) :
    IsValueLine (doubleQuoted t ++ ['\n']) .quoted t := by
  refine ⟨readsLine_quoted (Or.inl rfl) rfl fun r i l k => ?_, allowed_append_feed fun c hc => ?_⟩
  · obtain ⟨i', l', k', h, -⟩ := quoted_doubleQuoted t ('\n' :: r) i l k
    exact ⟨i', l', k', h⟩
  · rw [doubleQuoted, List.cons_append, List.mem_cons, List.mem_append, List.mem_singleton] at hc
    obtain rfl | hc | rfl := hc
    · rfl
    · obtain ⟨d, -, hd⟩ := List.mem_flatMap.mp hc
      exact isAllowed_of_mem_escapeChar hd
    · rfl

theorem printable_of_not_needsEscapes {t : Text} (h : needsEscapes t = false) :
    ∀ c ∈ t, isPrintable c = true := by
  rw [needsEscapes, Bool.or_eq_false_iff, Bool.not_eq_false'] at h
  exact List.all_eq_true.mp h.1

/-- A text that the writer writes plainly. -/
theorem isValueLine_plain {t : Text} (h : isPlain t = true) :
    IsValueLine (t ++ ['\n']) .plain t := by
  simp only [isPlain, Bool.and_eq_true, Bool.not_eq_true', bne_iff_ne, ne_eq] at h
  obtain ⟨⟨⟨⟨⟨⟨hambiguous, hescapes⟩, hbreak⟩, hhead⟩, hlast⟩, hfirst⟩, hinner⟩ := h
  have hprintable := printable_of_not_needsEscapes hescapes
  have hne : t ≠ [] := by
    rintro rfl
    cases hambiguous
  have hblank (c : Char) (hc : c ∈ t) (hs : c ≠ ' ') :=
    not_isBlank_of_isPrintable (hprintable c hc) hs
  have hplain : IsPlainText t := by
    refine ⟨hne, fun c hc => ?_, fun c hc => ?_, fun c hc => ?_, hinner⟩
    · simpa using List.any_eq_false.mp hbreak c hc
    · refine hblank c (List.mem_of_mem_head? hc) ?_
      rintro rfl
      exact hhead hc
    · refine hblank c (List.mem_of_mem_getLast? hc) ?_
      rintro rfl
      exact hlast hc
  obtain ⟨c, u, rfl⟩ := List.exists_cons_of_ne_nil hne
  simp only [hasFirstMark, Bool.or_eq_false_iff] at hfirst
  have hmem : c ∈ c :: u := List.mem_cons_self ..
  exact ⟨readsLine_plain hplain ⟨⟨hplain.head c rfl, hplain.noBreak c hmem⟩, hfirst.1.1.1,
    hfirst.1.1.2⟩, allowed_append_feed fun d hd => isAllowed_of_isPrintable (hprintable d hd)⟩

/-- A text without line feeds is read back from the line that is written for it. -/
theorem exists_isValueLine_textLine {t : Text} (ht : '\n' ∉ t) :
    ∃ style, IsValueLine (textLine t) style t := by
  have hfeed : t.any (· == '\n') = false := by
    rw [List.any_eq_false]
    intro c hc he
    exact ht (eq_of_beq he ▸ hc)
  have hblock : isBlock t = false := by rw [isBlock, hfeed, Bool.false_and, Bool.false_and]
  rw [textLine, hblock, hfeed]
  by_cases hp : isPlain t = true
  · rw [if_pos hp]
    exact ⟨_, isValueLine_plain hp⟩
  · rw [if_neg hp]
    by_cases hq : isQuotable t = true
    · simp only [hq, Bool.not_false, Bool.and_self, Bool.false_eq_true, if_false, if_true]
      simp only [isQuotable, Bool.and_eq_true, Bool.not_eq_true'] at hq
      have hprintable := printable_of_not_needsEscapes hq.1
      rw [needsEscapes, Bool.or_eq_false_iff] at hq
      exact ⟨_, isValueLine_singleQuoted ⟨hprintable, ht, isChain_keepApart hq.1.2 hq.2⟩⟩
    · simp only [hq, Bool.not_false, Bool.and_false, Bool.false_eq_true, if_false]
      exact ⟨_, isValueLine_doubleQuoted t⟩

/-- An entry with a short key and with its value written so that it is read back. -/
structure Entry.IsWritten (e : Entry) : Prop where
  key : IsKey e.name
  value : IsValueLine e.line e.style e.value

namespace Entry.IsWritten

variable {e : Entry} (he : e.IsWritten)

include he

theorem isCut : e.IsCut := ⟨he.key, he.value.reads⟩

theorem isAllowed : ∀ c ∈ e.text, isAllowed c = true := by
  intro c hc
  rw [Entry.text, entryLine, List.mem_append, List.mem_append] at hc
  obtain (hc | hc) | hc := hc
  · exact isAllowed_of_isAscii (isAscii_of_isKeyChar (he.key.chars c hc))
  · have hsep : ": ".toList.all Yaml.isAllowed = true := by decide
    exact List.all_eq_true.mp hsep c hc
  · exact he.value.allowed c hc

end Entry.IsWritten

/-- A mapping of written entries is read back. -/
theorem Entry.ofText?_of_isWritten {e : Entry} {es : List Entry}
    (hes : ∀ f ∈ e :: es, f.IsWritten) :
    Document.ofText? ((e :: es).flatMap text) =
      some ⟨some (.mapping ((e :: es).map nodes)), []⟩ := by
  apply ofText?_flatMap_text fun f hf => (hes f hf).isCut
  intro c hc
  obtain ⟨f, hf, hm⟩ := List.mem_flatMap.mp hc
  exact (hes f hf).isAllowed c hm

end JobSearch.Yaml
