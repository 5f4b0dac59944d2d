import Mathlib.Data.List.TakeWhile
import JobSearch.Form.Reader
import JobSearch.Proofs.Json.Indented
import JobSearch.Proofs.Part.Json
import JobSearch.Proofs.Results

/-!
# Forms of written parts

The JSON of a list of parts is a form. Each of its objects is read as the entry of its part, in
whatever layout, and lowered to that part again. Only two things are lost: an empty month means the
present, like no month at all, and an empty text, site or date is taken for no input.
-/

namespace JobSearch.Form

open Json

/-- The input of an entry with this value; `null` is no input. -/
def inputOf : Value → Option Value
  | .null => none
  | v => some v

/-- The entry of a part. -/
def Entry.ofPart (p : Part) : Entry := ⟨p.kind.name, inputOf p.inputJson⟩

/-- A member of an entry as it is written, with white space around it. -/
def entryMember (lead gap name value : Text) : Text := lead ++ (quote name ++ ':' :: (gap ++ value))

/-- An entry as it is written, with white space in front of its members, behind their colons and at
the end. -/
def entryText (lead gap trail type input : Text) : Text :=
  '\x7b' :: (entryMember lead gap "type".toList (quote type) ++
    ',' :: (entryMember lead gap "input".toList input ++ (trail ++ ['\x7d'])))

/-- Both readers of members pass over white space first. -/
theorem readType_quote {gap : Text} (hg : IsSpacing gap) (type r : Text) :
    readType (gap ++ (quote type ++ r)) = .ok (type, r) := by
  rw [readType, quote_append, skipSpace_append hg rfl]
  exact string_flatMap type r

theorem readInput_append {gap : Text} (hg : IsSpacing gap) {text : Text}
    (hs : StartsElement text) (r : Text) :
    readInput (gap ++ (text ++ r)) = readInput (text ++ r) := by
  obtain ⟨c, t, rfl, hc, -⟩ := hs
  simp only [readInput, List.cons_append, skipSpace_append hg hc, skipSpace_cons hc]

section Layout

variable {lead gap trail type text : Text} {input : Option Value}

/-- The type is read first, then the input, then the brace. -/
theorem entryMembers_entryText (hl : IsSpacing lead) (hg : IsSpacing gap) (ht : IsSpacing trail)
    (hs : StartsElement text) (hi : ReadsBack readInput text input) (fuel : Nat) (r : Text) :
    entryMembers (fuel + 3) true ⟨none, none⟩ (lead ++ (quote "type".toList ++
        ':' :: (gap ++ (quote type ++ ',' :: (lead ++ (quote "input".toList ++
          ':' :: (gap ++ (text ++ (trail ++ '\x7d' :: r))))))))) =
      .ok (⟨type, input⟩, '\x7d' :: r) := by
  have hn : "input".toList ≠ "type".toList := by decide
  have hinput : readInput (text ++ (trail ++ '\x7d' :: r)) = .ok (input, trail ++ '\x7d' :: r) :=
    hi _ (endsNumber_append ht (Or.inr (Or.inr rfl)) r)
  rw [entryMembers, nextName_first hl]
  simp only [if_true, Option.isSome_none, Bool.false_eq_true, if_false, colon,
    skipSpace_cons (c := ':') rfl, readType_quote hg]
  rw [entryMembers, nextName_comma hl]
  simp only [hn, if_true, Option.isSome_none, Bool.false_eq_true, if_false, colon,
    skipSpace_cons (c := ':') rfl, readInput_append hg hs, hinput]
  rw [entryMembers, nextName_close ht]
  rfl

/-- An entry is read back in any layout in which its input is. -/
theorem readEntry_entryText (hl : IsSpacing lead) (hg : IsSpacing gap) (ht : IsSpacing trail)
    (hs : StartsElement text) (hi : ReadsBack readInput text input) :
    ReadsBack readEntry (entryText lead gap trail type text) ⟨type, input⟩ := by
  intro r _
  suffices h : ∀ s, s = lead ++ (quote "type".toList ++ ':' :: (gap ++ (quote type ++
      ',' :: (lead ++ (quote "input".toList ++ ':' :: (gap ++ (text ++ (trail ++
        '\x7d' :: r)))))))) →
      enclose closeObject (entryMembers (s.length + 1) true ⟨none, none⟩ s) =
        .ok (⟨type, input⟩, r) by
    rw [readEntry, entryText, List.cons_append, skipSpace_cons rfl]
    refine h _ ?_
    simp only [entryMember, List.append_assoc, List.cons_append, List.nil_append]
  intro s he
  obtain ⟨fuel, hf⟩ : ∃ n, s.length + 1 = n + 3 := by
    refine ⟨s.length - 2, ?_⟩
    simp only [he, List.length_append, List.length_cons]
    omega
  rw [hf, he, entryMembers_entryText hl hg ht hs hi]
  simp only [enclose, closeObject, skipSpace_cons (c := '\x7d') rfl]

end Layout

/-- An input is read back from every text from which its value is read back, if none but `null`
starts with its first letter. -/
theorem readInput_of_value {v : Value} {text : Text}
    (hstart : ∃ c t, text = c :: t ∧ isSpace c = false ∧ c ≠ ']' ∧ (c = 'n' → v = .null))
    (hnull : v = .null → text = "null".toList) (hv : ReadsBack (value inputLevels) text v) :
    ReadsBack readInput text (inputOf v) := by
  intro r hr
  by_cases hn : v = .null
  · rw [hnull hn, hn]
    rfl
  · obtain ⟨c, t, rfl, hc, -, hcn⟩ := hstart
    have hi : inputOf v = some v := by
      unfold inputOf
      split
      · exact absurd rfl hn
      · rfl
    have hvalue := hv r hr
    rw [List.cons_append] at hvalue ⊢
    rw [readInput, skipSpace_cons hc]
    split
    · next heq => exact absurd (hcn (List.cons.inj heq).1) hn
    · rw [hvalue, hi]
      rfl

theorem compact_json_eq_entryText (p : Part) :
    p.json.compact = entryText [] [] [] p.kind.name p.inputJson.compact := by
  simp [Part.json, Value.compact, compactMembers, commaJoin, entryText, entryMember]

theorem indented_json_eq_entryText (p : Part) (level : Nat) :
    p.json.indented level = entryText (lineBreak (level + 1)) [' '] (lineBreak level) p.kind.name
      (p.inputJson.indented (level + 1)) := by
  simp [Part.json, Value.indented, indentedMembers, bracketed, commaJoin, entryText, entryMember]

theorem fits_inputJson (p : Part) : p.inputJson.Fits inputLevels :=
  p.fits_inputJson.mono (by decide)

/-- The object of a part is read as the entry of the part. -/
theorem readEntry_compact (p : Part) : ReadsBack readEntry p.json.compact (Entry.ofPart p) := by
  have hf := fits_inputJson p
  have hnull (h : p.inputJson = .null) : p.inputJson.compact = "null".toList := by
    rw [h, Value.compact]
  rw [compact_json_eq_entryText]
  exact readEntry_entryText isSpacing_nil isSpacing_nil isSpacing_nil hf.startsElement
    (readInput_of_value hf.exists_compact_eq_cons hnull hf.value_compact)

/-- The object of a part is read as the entry of the part on lines of its own as well. -/
theorem readEntry_indented (p : Part) (level : Nat) :
    ReadsBack readEntry (p.json.indented level) (Entry.ofPart p) := by
  have hf := fits_inputJson p
  have hgap : IsSpacing [' '] := List.forall_mem_singleton.mpr rfl
  have hnull (h : p.inputJson = .null) :
      p.inputJson.indented (level + 1) = "null".toList := by
    rw [h, Value.indented]
  rw [indented_json_eq_entryText]
  exact readEntry_entryText (isSpacing_lineBreak (level + 1)) hgap (isSpacing_lineBreak level)
    (hf.startsElement_indented (level + 1))
    (readInput_of_value (hf.exists_indented_eq_cons (level + 1)) hnull
      (hf.value_indented (level + 1)))

end JobSearch.Form

namespace JobSearch.Part

open Form Json

/-- The part has an empty text where it needs one. -/
def lacksInput : Part → Bool
  | .text t => t.isEmpty
  | .site t => t.isEmpty
  | .after t => t.isEmpty
  | .before t => t.isEmpty
  | .lastMonth _ => false
  | .salary _ => false

/-- The part that a form gives back: an empty month is no month. -/
def submitted : Part → Part
  | .lastMonth (some []) => .lastMonth none
  | p => p

/-- The bounds of a range are taken from its JSON again. -/
theorem salaryRange_json (r : SalaryRange) : salaryRange (some r.json) = .ok r := by
  obtain ⟨min, max⟩ := r
  cases min <;> cases max <;> rfl

/-- The entry of a part is lowered to the part, unless it lacks an input. -/
theorem lower_ofPart (p : Part) :
    (Entry.ofPart p).lower =
      if p.lacksInput then .error (.invalidInput p.kind .missing) else .ok p.submitted := by
  cases p with
  | text t | site t | after t | before t => cases t <;> rfl
  | lastMonth input => cases input with
    | none => rfl
    | some t => cases t <;> rfl
  | salary r =>
    have hi : inputOf r.json = some r.json := by
      obtain ⟨min, max⟩ := r
      cases max <;> rfl
    rw [Entry.lower, Entry.ofPart, PartKind.ofName?_name]
    simp only [kind, inputJson, hi, salaryRange_json]
    rfl

/-- What a form of a list of parts gives: the parts as they come back, unless one lacks its input.
-/
def throughForm (ps : List Part) : Except QueryError (List Part) :=
  ps.mapM fun p =>
    if p.lacksInput then .error (.invalidInput p.kind .missing) else .ok p.submitted

/-- A list whose elements are read as the entries of parts is a form of these parts, in any layout.
-/
theorem parts_of_readsBack {ps : List Part} {text : Part → Text} {lead trail behind : Text}
    (hlead : IsSpacing lead) (htrail : IsSpacing trail) (hbehind : IsSpacing behind)
    (hread : ∀ p, ReadsBack readEntry (text p) (Entry.ofPart p))
    (hstart : ∀ p, StartsElement (text p)) :
    parts ('[' :: (commaJoin (ps.map fun p => lead ++ text p) ++ (trail ++ ']' :: behind))) =
      throughForm ps := by
  have hlist : readList readEntry
      ('[' :: (commaJoin (ps.map fun p => lead ++ text p) ++ (trail ++ ']' :: behind))) =
        .ok (ps.map Entry.ofPart, behind) := by
    rw [readList, skipSpace_cons rfl]
    exact arrayOf_commaJoin hlead htrail (fun p _ => hread p) (fun p _ => hstart p) behind
  have hend : skipSpace behind = [] := List.dropWhile_eq_nil_iff.mpr hbehind
  rw [parts, readWhole, hlist]
  simp only [hend, List.mapM_map]
  exact congrArg (fun f => ps.mapM f) (funext lower_ofPart)

/-- The compact JSON of a list of parts is a form of these parts. -/
theorem parts_compact_listJson (ps : List Part) :
    parts (listJson ps).compact = throughForm ps := by
  have htext : (listJson ps).compact =
      '[' :: (commaJoin (ps.map fun p => [] ++ p.json.compact) ++ ([] ++ ']' :: [])) := by
    rw [listJson, Value.compact, compactItems_eq_map, List.map_map]
    rfl
  rw [htext]
  exact parts_of_readsBack isSpacing_nil isSpacing_nil isSpacing_nil readEntry_compact
    fun p => ⟨_, _, rfl, by decide, by decide⟩

/-- The indented JSON of a list of parts is a form of these parts, with white space behind it or
without. -/
theorem parts_pretty_listJson (ps : List Part) {behind : Text} (hbehind : IsSpacing behind) :
    parts ((listJson ps).pretty ++ behind) = throughForm ps := by
  obtain ⟨trail, htrail, he⟩ :=
    exists_bracketed_eq '[' ']' 0 (indentedItems 1 (ps.map json))
  have htext : (listJson ps).pretty ++ behind =
      '[' :: (commaJoin (ps.map fun p => lineBreak 1 ++ p.json.indented 1) ++
        (trail ++ ']' :: behind)) := by
    rw [Value.pretty, listJson, Value.indented, he, indentedItems_eq_map, List.map_map,
      List.map_map]
    simp only [List.cons_append, List.append_assoc, List.nil_append]
    rfl
  rw [htext]
  refine parts_of_readsBack (isSpacing_lineBreak 1) htrail hbehind (fun p => readEntry_indented p 1)
    fun p => ?_
  rw [indented_json_eq_entryText]
  exact ⟨_, _, rfl, by decide, by decide⟩

/-- A part that is written has the same token when it comes back from a form. -/
theorem token_submitted (cal : Calendar) (p : Part) : p.submitted.token cal = p.token cal := by
  unfold submitted
  split <;> rfl

/-- A part that a form refuses is not written either. -/
theorem token_ne_ok_of_lacksInput {p : Part} (h : p.lacksInput = true) (cal : Calendar)
    (t : Text) : p.token cal ≠ .ok t := by
  cases p with
  | lastMonth input => cases h
  | salary r => cases h
  | text u | site u | after u | before u =>
    obtain rfl := List.isEmpty_iff.mp h
    exact nofun

end JobSearch.Part
