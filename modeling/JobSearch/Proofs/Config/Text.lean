import JobSearch.Proofs.Calendar.Iso
import JobSearch.Proofs.Config.Store
import JobSearch.Proofs.Yaml.Line

/-!
# Saved configurations are read back

The text of a configuration is a mapping of three scalars. Each setting is written in a way in which
it is read back: the number of months in digits, the endpoint in the style that its characters need,
and the reference date between apostrophes.
-/

namespace JobSearch

namespace Yaml

open Lexer

theorem isKeyChar_of_isDigit {c : Char} (hc : c.isDigit = true) : isKeyChar c = true := by
  simp [isKeyChar, Char.isAlphanum, hc]

/-- The digits of the base ten have the values of their digits. -/
theorem mapM_hexValue?_of_isDigit {t : Text} (ht : ∀ c ∈ t, c.isDigit = true) :
    (t.mapM fun c => (hexValue? c).bind fun d => if d < 10 then some d else none) =
      some (t.map fun c => c.toNat - '0'.toNat) := by
  induction t with
  | nil => rfl
  | cons c t ih =>
    obtain ⟨hc, ht⟩ := List.forall_mem_cons.mp ht
    have hlt : c.toNat - '0'.toNat < 10 := by
      have hrange := Text.toNat_of_isDigit hc
      have hzero : '0'.toNat = 48 := rfl
      omega
    rw [List.mapM_cons, ih ht]
    simp only [hexValue?, hc, if_true, Option.bind_some, hlt, Option.bind_eq_bind, Option.pure_def,
      List.map_cons]

theorem digits?_ofNat (n : Nat) : digits? 10 (Text.ofNat n) = some n := by
  have hne : (Text.ofNat n).isEmpty = false := List.isEmpty_eq_false_iff.mpr (Text.ofNat_ne_nil n)
  rw [digits?, hne, mapM_hexValue?_of_isDigit fun c => Text.isDigit_of_mem_ofNat, Option.map_some,
    List.foldl_map]
  exact congrArg some Nat.ofDigitChars_ten_toDigits

theorem dropStart?_eq_none {start t : Text} {c : Char} (hc : c ∈ start) (ht : c ∉ t) :
    dropStart? start t = none := by
  rw [dropStart?, if_neg]
  intro h
  exact ht ((List.isPrefixOf_iff_prefix.mp h).subset hc)

theorem not_isDigit_mem_ofNat {c : Char} (hc : c.isDigit = false) (n : Nat) :
    c ∉ Text.ofNat n := by
  intro hm
  rw [Text.isDigit_of_mem_ofNat hm] at hc
  cases hc

theorem startsWith_eq_false {c : Char} {t : Text} (hc : c ∉ t) : startsWith c t = false := by
  rw [startsWith, beq_eq_false_iff_ne]
  intro h
  exact hc (List.mem_of_mem_head? h)

theorem not_isSigned_ofNat (n : Nat) : isSigned (Text.ofNat n) = false := by
  rw [isSigned, startsWith_eq_false (not_isDigit_mem_ofNat rfl n),
    startsWith_eq_false (not_isDigit_mem_ofNat rfl n), Bool.or_self]

theorem not_hasLeadingZero_ofNat (n : Nat) : hasLeadingZero (Text.ofNat n) = false := by
  rw [hasLeadingZero, not_isSigned_ofNat]
  rcases Nat.eq_zero_or_pos n with rfl | hn
  · rfl
  · obtain ⟨c, ds, he, hc⟩ := Text.exists_ofNat_eq_cons hn
    have hzero : startsWith '0' (Text.ofNat n) = false := by
      rw [he]
      simpa [startsWith] using hc
    simp [hzero]

/-- A number in digits is read back. -/
theorem natural?_ofNat {limit n : Nat} (hn : n ≤ limit) :
    natural? limit (Text.ofNat n) = some n := by
  have hstart {start : Text} {c : Char} (hc : c ∈ start) (hd : c.isDigit = false) :
      dropStart? start (Text.ofNat n) = none :=
    dropStart?_eq_none hc (not_isDigit_mem_ofNat hd n)
  have hplus : dropStart? ['+'] (Text.ofNat n) = none := hstart (List.mem_singleton_self _) rfl
  have hx : dropStart? "0x".toList (Text.ofNat n) = none := @hstart _ 'x' (by decide) rfl
  have ho : dropStart? "0o".toList (Text.ofNat n) = none := @hstart _ 'o' (by decide) rfl
  have hb : dropStart? "0b".toList (Text.ofNat n) = none := @hstart _ 'b' (by decide) rfl
  simp only [natural?, hplus, Option.getD_none, hx, ho, hb, Option.bind_none, Option.none_or,
    not_isSigned_ofNat, not_hasLeadingZero_ofNat, Bool.or_self, Bool.false_eq_true, if_false,
    digits?_ofNat, Option.bind_some, if_pos hn]

end Yaml

namespace Config

open Yaml

/-- The number of months as an entry. -/
def countEntry (n : Nat) : Entry := ⟨countKey, Text.ofNat n ++ ['\n'], .plain, Text.ofNat n⟩

/-- The endpoint as an entry, in the style in which it is written. -/
def urlEntry (style : Style) (t : Text) : Entry := ⟨urlKey, textLine t, style, t⟩

/-- The reference date as an entry. -/
def dateEntry : Option Date → Entry
  | none => ⟨dateKey, dateLine none, .plain, "null".toList⟩
  | some d => ⟨dateKey, dateLine (some d), .quoted, d.iso⟩

@[simp] theorem name_dateEntry (date : Option Date) : (dateEntry date).name = dateKey := by
  cases date <;> rfl

theorem text_eq_flatMap (c : Config) (style : Style) :
    c.text = [countEntry c.variationCount, urlEntry style c.searchUrl,
      dateEntry c.referenceDate].flatMap Entry.text := by
  cases h : c.referenceDate <;> simp [text, countEntry, urlEntry, dateEntry, Entry.text, h]

/-- The names of the settings are short words. -/
theorem isKey_of_mem_keys {name : Text} (h : name ∈ [countKey, urlKey, dateKey]) :
    Lexer.IsKey name := by
  have hall : [countKey, urlKey, dateKey].all (fun name =>
      !name.isEmpty && decide (name.length ≤ 1024) && name.all Lexer.isKeyChar) = true := by decide
  have hname := List.all_eq_true.mp hall name h
  simp only [Bool.and_eq_true, Bool.not_eq_true', List.isEmpty_eq_false_iff, decide_eq_true_eq,
    List.all_eq_true] at hname
  exact ⟨hname.1.1, hname.1.2, hname.2⟩

theorem isWritten_countEntry (n : Nat) : (countEntry n).IsWritten :=
  ⟨isKey_of_mem_keys (by simp [countEntry]), isValueLine_word (Text.ofNat_ne_nil n) fun _ hc =>
    isKeyChar_of_isDigit (Text.isDigit_of_mem_ofNat hc)⟩

theorem isApostropheText_iso (d : Date) : IsApostropheText d.iso := by
  have hne {c e : Char} (hc : c ∈ d.iso) (he : e.isDigit = false ∧ e ≠ '-' ∧ e ≠ '+') : c ≠ e := by
    rintro rfl
    obtain h | h | h := Date.mem_iso hc
    · rw [he.1] at h
      cases h
    · exact he.2.1 h
    · exact he.2.2 h
  refine ⟨fun c hc => ?_, fun h => hne h (by decide) rfl, ?_⟩
  · obtain h | rfl | rfl := Date.mem_iso hc
    · exact isPrintable_of_isAscii (isAscii_of_isKeyChar (isKeyChar_of_isDigit h))
    · rfl
    · rfl
  · exact isChain_keepApart_of_not_mem fun h => hne h (by decide) rfl

theorem isWritten_dateEntry (date : Option Date) : (dateEntry date).IsWritten := by
  cases date with
  | none =>
    have hnull : "null".toList.all Lexer.isKeyChar = true := by decide
    exact ⟨isKey_of_mem_keys (by simp [dateEntry]),
      isValueLine_word (List.cons_ne_nil _ _) (List.all_eq_true.mp hnull)⟩
  | some d =>
    exact ⟨isKey_of_mem_keys (by simp [dateEntry]),
      isValueLine_singleQuoted (isApostropheText_iso d)⟩

/-- An entry is read as the setting that its name stands for. -/
theorem entries?_cons {doc : Document} {g g' : Given} {e : Entry} {es : List Entry}
    (h : g.add e.name e.nodes.2 = some g') :
    entries? doc g ((e :: es).map Entry.nodes) = entries? doc g' (es.map Entry.nodes) := by
  rw [List.map_cons, Entry.nodes, entries?]
  simp only [Document.resolve]
  rw [Entry.nodes] at h
  rw [h, Option.bind_some]

/-- The settings are read from their entries. -/
theorem entries?_settings {c : Config} (hc : c.variationCount ≤ Text.maxWord) (style : Style)
    (doc : Document) :
    entries? doc .nothing ([countEntry c.variationCount, urlEntry style c.searchUrl,
      dateEntry c.referenceDate].map Entry.nodes) =
        some ⟨some c.variationCount, some c.searchUrl, some c.referenceDate⟩ := by
  have hcount : Given.nothing.add countKey (countEntry c.variationCount).nodes.2 =
      some ⟨some c.variationCount, none, none⟩ := by
    simp [Given.add, Given.nothing, countEntry, Entry.nodes, count?, natural?_ofNat hc]
  have hurl : (⟨some c.variationCount, none, none⟩ : Given).add urlKey
      (urlEntry style c.searchUrl).nodes.2 =
        some ⟨some c.variationCount, some c.searchUrl, none⟩ := by
    have hk : urlKey ≠ countKey := by decide
    simp [Given.add, hk, urlEntry, Entry.nodes, url?]
  have hdate : (⟨some c.variationCount, some c.searchUrl, none⟩ : Given).add dateKey
      (dateEntry c.referenceDate).nodes.2 =
        some ⟨some c.variationCount, some c.searchUrl, some c.referenceDate⟩ := by
    have hk : dateKey ≠ countKey := by decide
    have hu : dateKey ≠ urlKey := by decide
    cases c.referenceDate with
    | none =>
      have hnull : isNull ['n', 'u', 'l', 'l'] = true := by decide
      simp [Given.add, hk, hu, dateEntry, Entry.nodes, date?, hnull]
    | some d => simp [Given.add, hk, hu, dateEntry, Entry.nodes, date?, d.ofIso?_iso]
  rw [← name_dateEntry c.referenceDate] at hdate
  rw [entries?_cons (e := countEntry _) hcount, entries?_cons (e := urlEntry _ _) hurl,
    entries?_cons hdate]
  rfl

/-- A configuration is read back from its text, unless its endpoint has a line feed. -/
theorem ofText?_text {c : Config} (hc : c.variationCount ≤ Text.maxWord)
    (hurl : '\n' ∉ c.searchUrl) : ofText? c.text = some c := by
  obtain ⟨style, hline⟩ := exists_isValueLine_textLine hurl
  have hwritten : ∀ e ∈ [countEntry c.variationCount, urlEntry style c.searchUrl,
      dateEntry c.referenceDate], e.IsWritten := by
    simp only [List.forall_mem_cons]
    exact ⟨isWritten_countEntry _, ⟨isKey_of_mem_keys (by simp [urlEntry]), hline⟩,
      isWritten_dateEntry _, List.forall_mem_nil _⟩
  rw [ofText?, text_eq_flatMap c style, Entry.ofText?_of_isWritten hwritten, Option.bind_some,
    ofDocument?]
  simp only [entries?_settings hc style]
  rfl

end Config

namespace Store

/-- Loading after saving has the saved configuration and writes nothing, whatever the rules for
names. This holds for every valid configuration that is put in the place of a loaded one, whatever
its reference date is and whatever characters its endpoint has, as long as it is written on one
line, that is, has no line feed. -/
theorem load_of_save {idna : Url.Idna} {s s₁ : Store} {c₀ c : Config}
    (h₀ : s.load idna = (.ok c₀, s₁)) (hpos : 1 ≤ c.variationCount) (hle : c.variationCount ≤ 1200)
    (hurl : ∃ u, Url.parse idna c.searchUrl = .ok u) (hfeed : '\n' ∉ c.searchUrl) :
    ∃ s₂, s₁.save c = .ok s₂ ∧ s₂ = file c.text.utf8 ∧ s₂.load idna = (.ok c, s₂) := by
  obtain ⟨e, he⟩ | ⟨d, -, hd⟩ := load_cases idna s
  · rw [he] at h₀
    cases h₀
  · obtain rfl : saved d = s₁ := congrArg Prod.snd (hd.symm.trans h₀)
    have hword : c.variationCount ≤ Text.maxWord := Nat.le_trans hle (by decide)
    have hread : Config.read idna c.text = .ok c :=
      Config.read_eq_ok_iff.mpr ⟨Config.ofText?_text hword hfeed, hpos, hle, hurl⟩
    exact ⟨saved c, rfl, rfl, load_saved hread⟩

/-- An endpoint with spaces at both ends, with a host beyond ASCII, with the marks of a key and of a
comment and with both kinds of quotation marks, and a date in a year of six digits before year 0. -/
theorem load_of_save_marks :
    let idna : Url.Idna := .ofTable [("münchen.de".toList, "xn--mnchen-3ya.de".toList)]
    let url : Text := " https://münchen.de/c: d #e'f\"g&*!, ".toList
    let date : Date := ⟨-262143, 1, 1, by decide⟩
    let c : Config := ⟨1200, url, some date⟩
    ∃ s₂, (saved .standard).save c = .ok s₂ ∧ s₂ = file c.text.utf8 ∧
      s₂.load idna = (.ok c, s₂) := by
  intro idna url date c
  have hurl : ∃ u, Url.parse idna url = .ok u := by
    cases hu : Url.parse idna url with
    | ok u => exact ⟨u, rfl⟩
    | error e =>
      have hok : (Url.parse idna url).isOk = true := by decide +kernel
      rw [hu] at hok
      cases hok
  exact load_of_save (s := noFile) (load_of_isAbsent (.inr rfl)) (by decide) (by decide) hurl
    (by decide +kernel)

end Store

end JobSearch
