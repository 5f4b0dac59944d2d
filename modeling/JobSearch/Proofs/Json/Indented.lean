import JobSearch.Proofs.Json.Compact

/-!
# Indented values are read back

An indented text differs from the compact one in the white space around elements, members and
brackets, which the readers pass over.
-/

namespace JobSearch.Json

theorem isSpacing_lineBreak (level : Nat) : IsSpacing (lineBreak level) := by
  intro c hc
  rcases List.mem_cons.mp hc with rfl | hc
  · rfl
  · rw [(List.mem_replicate.mp hc).2]
    rfl

/-- A bracketed list is its entries on lines of their own, with white space before the closing
bracket, none if there is no entry. -/
theorem exists_bracketed_eq (left right : Char) (level : Nat) (entries : List Text) :
    ∃ trail, IsSpacing trail ∧ bracketed left right level entries =
      left :: (commaJoin (entries.map (lineBreak (level + 1) ++ ·)) ++ (trail ++ [right])) := by
  cases entries with
  | nil => exact ⟨[], isSpacing_nil, rfl⟩
  | cons t ts => exact ⟨lineBreak level, isSpacing_lineBreak level, by simp [bracketed]⟩

theorem indentedItems_eq_map (level : Nat) (vs : List Value) :
    indentedItems level vs = vs.map (Value.indented level) := by
  induction vs with
  | nil => rfl
  | cons v vs ih => rw [indentedItems, ih, List.map_cons]

theorem indentedMembers_eq_map (level : Nat) (ms : List (Text × Value)) :
    indentedMembers level ms = ms.map (memberText fun v => ' ' :: v.indented level) := by
  induction ms with
  | nil => rfl
  | cons m ms ih =>
    rw [indentedMembers, ih, List.map_cons, memberText]
    simp

/-- The text of a value starts with a character of its own, never with a closing bracket, and with
the letter of `null` only for that literal. -/
theorem Value.Fits.exists_indented_eq_cons {levels : Nat} {v : Value} (h : v.Fits levels)
    (level : Nat) :
    ∃ c t, v.indented level = c :: t ∧ isSpace c = false ∧ c ≠ ']' ∧ (c = 'n' → v = .null) := by
  have hscalar := h.exists_compact_eq_cons
  cases h with
  | null => exact hscalar
  | bool b => cases b <;> exact hscalar
  | natural n => exact hscalar
  | string t => exact hscalar
  | array _ =>
    obtain ⟨trail, -, he⟩ := exists_bracketed_eq '[' ']' level _
    exact ⟨_, _, he, by decide, by decide, fun hc => absurd hc (by decide)⟩
  | object _ =>
    obtain ⟨trail, -, he⟩ := exists_bracketed_eq '\x7b' '\x7d' level _
    exact ⟨_, _, he, by decide, by decide, fun hc => absurd hc (by decide)⟩

theorem Value.Fits.startsElement_indented {levels : Nat} {v : Value} (h : v.Fits levels)
    (level : Nat) : StartsElement (v.indented level) := by
  obtain ⟨c, t, he, hc, hb, -⟩ := h.exists_indented_eq_cons level
  exact ⟨c, t, he, hc, hb⟩

/-- White space in front of a value is passed over. -/
theorem value_cons_space (levels : Nat) (s : Text) :
    value levels (' ' :: s) = value levels s := by
  have hs : skipSpace (' ' :: s) = skipSpace s := rfl
  cases levels <;> simp only [value, hs]

/-- A value is read back from its indented text. -/
theorem Value.Fits.value_indented {levels : Nat} {v : Value} (h : v.Fits levels) (level : Nat) :
    ReadsBack (value levels) (v.indented level) v := by
  induction h generalizing level with
  | null => exact Fits.null.value_compact
  | bool b =>
    cases b with
    | false => exact (Fits.bool false).value_compact
    | true => exact (Fits.bool true).value_compact
  | natural n => exact (Fits.natural n).value_compact
  | string t => exact (Fits.string t).value_compact
  | @array levels items h ih =>
    intro r _
    have hlead := isSpacing_lineBreak (level + 1)
    obtain ⟨trail, htrail, he⟩ :=
      exists_bracketed_eq '[' ']' level (indentedItems (level + 1) items)
    have hi := arrayOf_commaJoin (f := id) hlead htrail (fun v hv => ih v hv (level + 1))
      (fun v hv => (h v hv).startsElement_indented (level + 1)) r
    have ht : (Value.array items).indented level ++ r =
        '[' :: (commaJoin (items.map fun v => lineBreak (level + 1) ++ v.indented (level + 1)) ++
          (trail ++ ']' :: r)) := by
      rw [indented, he, indentedItems_eq_map, List.map_map]
      simp only [List.cons_append, List.append_assoc, List.nil_append]
      rfl
    rw [ht, value, skipSpace_cons rfl]
    simp only [hi, List.map_id, Except.map]
  | @object levels members h ih =>
    intro r _
    have hlead := isSpacing_lineBreak (level + 1)
    obtain ⟨trail, htrail, he⟩ :=
      exists_bracketed_eq '\x7b' '\x7d' level (indentedMembers (level + 1) members)
    have hread : ∀ m ∈ members,
        ReadsBack (value levels) (' ' :: m.2.indented (level + 1)) m.2 := by
      intro m hm r hr
      rw [List.cons_append, value_cons_space]
      exact ih m hm (level + 1) r hr
    have hm : objectOf (value levels) (commaJoin (members.map fun m => lineBreak (level + 1) ++
        memberText (fun v => ' ' :: v.indented (level + 1)) m) ++ (trail ++ '\x7d' :: r)) =
        .ok (members, r) := objectOf_commaJoin hlead htrail hread r
    have ht : (Value.object members).indented level ++ r =
        '\x7b' :: (commaJoin (members.map fun m => lineBreak (level + 1) ++
          memberText (fun v => ' ' :: v.indented (level + 1)) m) ++ (trail ++ '\x7d' :: r)) := by
      rw [indented, he, indentedMembers_eq_map, List.map_map]
      simp only [List.cons_append, List.append_assoc, List.nil_append]
      rfl
    rw [ht, value, skipSpace_cons rfl]
    simp only [hm, Except.map]

end JobSearch.Json
