import Mathlib.Algebra.BigOperators.Group.List.Basic
import JobSearch.Json.Reader
import JobSearch.Proofs.Json.Scan

/-!
# Written values are read back

The reader of arrays gets back a list of anything whose elements it gets back, whatever white space
stands around them, and the reader of objects likewise. So a value with natural numbers only is read
back from its compact text as long as its brackets nest no deeper than the reader follows, and its
text determines it.
-/

namespace JobSearch.Json

/-- White space that carries nothing. -/
def IsSpacing (t : Text) : Prop := ∀ c ∈ t, isSpace c = true

theorem isSpacing_nil : IsSpacing [] := fun _ hc => by cases hc

theorem skipSpace_append {t : Text} (ht : IsSpacing t) {c : Char} (hc : isSpace c = false)
    (r : Text) : skipSpace (t ++ c :: r) = c :: r := by
  rw [skipSpace, List.dropWhile_append_of_pos ht, List.dropWhile_cons_of_neg (by simp [hc])]

theorem skipSpace_cons {c : Char} (hc : isSpace c = false) (r : Text) :
    skipSpace (c :: r) = c :: r :=
  skipSpace_append isSpacing_nil hc r

theorem endsNumber_cons {c : Char} (hc : c = ',' ∨ c = ']' ∨ c = '\x7d') (r : Text) :
    EndsNumber (c :: r) := by
  intro d hd
  obtain rfl := Option.some.inj hd
  rcases hc with rfl | rfl | rfl <;> decide

/-- No number goes on into white space or a bracket behind it. -/
theorem endsNumber_append {t : Text} (ht : IsSpacing t) {c : Char}
    (hc : c = ',' ∨ c = ']' ∨ c = '\x7d') (r : Text) : EndsNumber (t ++ c :: r) := by
  cases t with
  | nil => exact endsNumber_cons hc r
  | cons b t =>
    intro d hd
    obtain rfl := Option.some.inj hd
    have hb := ht b (List.mem_cons_self ..)
    simp only [isSpace, Bool.or_eq_true, beq_iff_eq] at hb
    rcases hb with ((rfl | rfl) | rfl) | rfl <;> decide

theorem commaJoin_cons (t : Text) (ts : List Text) :
    commaJoin (t :: ts) = t ++ ts.flatMap (',' :: ·) := by
  induction ts generalizing t with
  | nil => simp [commaJoin]
  | cons u ts ih =>
    rw [commaJoin, List.intercalate_cons_cons, ← commaJoin, ih, List.flatMap_cons]
    simp

theorem length_le_length_flatMap_cons (ts : List Text) :
    ts.length ≤ (ts.flatMap (',' :: ·)).length := by
  have h := List.length_le_sum_of_one_le (ts.map fun u => (',' :: u).length) (by simp)
  rwa [List.length_map, ← List.length_flatMap] at h

/-- Behind an element or a member stands a comma or what closes the list. -/
theorem endsNumber_flatMap_append {trail : Text} (ht : IsSpacing trail) (ts : List Text) {c : Char}
    (hc : c = ']' ∨ c = '\x7d') (r : Text) :
    EndsNumber (ts.flatMap (',' :: ·) ++ (trail ++ c :: r)) := by
  cases ts with
  | nil => exact endsNumber_append ht (Or.inr hc) r
  | cons t ts => exact endsNumber_cons (Or.inl rfl) _

/-- The reader gets `x` back from a text wherever no number goes on behind it. -/
def ReadsBack (item : Reader α) (text : Text) (x : α) : Prop :=
  ∀ r, EndsNumber r → item (text ++ r) = .ok (x, r)

section Arrays

/-- The text starts like an element: neither with white space nor with the closing bracket. -/
def StartsElement (text : Text) : Prop :=
  ∃ c t, text = c :: t ∧ isSpace c = false ∧ c ≠ ']'

theorem nextItem_close {trail : Text} (ht : IsSpacing trail) (first : Bool) (r : Text) :
    nextItem first (trail ++ ']' :: r) = .ok (false, ']' :: r) := by
  simp only [nextItem, skipSpace_append ht (c := ']') rfl]

theorem nextItem_first {lead text : Text} (hl : IsSpacing lead) (hs : StartsElement text)
    (r : Text) : nextItem true (lead ++ (text ++ r)) = .ok (true, text ++ r) := by
  obtain ⟨c, t, rfl, hc, hb⟩ := hs
  rw [nextItem, List.cons_append, skipSpace_append hl hc]
  split
  · next h => cases h
  · next h => exact absurd (List.cons.inj h).1 hb
  · next h => rw [← h, if_pos rfl]

theorem nextItem_comma {lead text : Text} (hl : IsSpacing lead) (hs : StartsElement text)
    (r : Text) : nextItem false (',' :: (lead ++ (text ++ r))) = .ok (true, text ++ r) := by
  obtain ⟨c, t, rfl, hc, hb⟩ := hs
  rw [nextItem, skipSpace_cons (c := ',') rfl]
  split
  · next h => cases h
  · next h => exact absurd (List.cons.inj h).1 (by decide)
  · next h =>
    obtain ⟨rfl, rfl⟩ := List.cons.inj h
    rw [if_neg Bool.false_ne_true, if_pos rfl, List.cons_append, skipSpace_append hl hc]
    split
    · next h => cases h
    · next h => exact absurd (List.cons.inj h).1 hb
    · rfl

variable {item : Reader α} {text : ι → Text} {f : ι → α} {lead trail : Text} {xs : List ι}

/-- The elements behind the first are read back up to the bracket. -/
theorem items_rest (hlead : IsSpacing lead) (htrail : IsSpacing trail)
    (hread : ∀ x ∈ xs, ReadsBack item (text x) (f x)) (hstart : ∀ x ∈ xs, StartsElement (text x))
    {fuel : Nat} (hf : xs.length < fuel) (r : Text) :
    items item fuel false
        ((xs.map fun x => lead ++ text x).flatMap (',' :: ·) ++ (trail ++ ']' :: r)) =
      .ok (xs.map f, ']' :: r) := by
  induction xs generalizing fuel with
  | nil =>
    obtain ⟨fuel, rfl⟩ : ∃ n, fuel = n + 1 := ⟨fuel - 1, by omega⟩
    simp only [List.map_nil, List.flatMap_nil, List.nil_append, items, nextItem_close htrail]
  | cons x xs ih =>
    obtain ⟨fuel, rfl⟩ : ∃ n, fuel = n + 1 := ⟨fuel - 1, by omega⟩
    have hrest := ih (fun y hy => hread y (List.mem_cons_of_mem x hy))
      (fun y hy => hstart y (List.mem_cons_of_mem x hy)) (Nat.lt_of_succ_lt_succ hf)
    have hitem := hread x (List.mem_cons_self ..) _
      (endsNumber_flatMap_append htrail (xs.map fun x => lead ++ text x) (Or.inl rfl) r)
    simp only [List.map_cons, List.flatMap_cons, List.cons_append, List.append_assoc, items,
      nextItem_comma hlead (hstart x (List.mem_cons_self ..)), hitem, hrest, Except.map]

/-- An array is read element by element, each as the value that its text is read as. -/
theorem arrayOf_commaJoin (hlead : IsSpacing lead) (htrail : IsSpacing trail)
    (hread : ∀ x ∈ xs, ReadsBack item (text x) (f x)) (hstart : ∀ x ∈ xs, StartsElement (text x))
    (r : Text) :
    arrayOf item (commaJoin (xs.map fun x => lead ++ text x) ++ (trail ++ ']' :: r)) =
      .ok (xs.map f, r) := by
  suffices h : ∀ s, s = commaJoin (xs.map fun x => lead ++ text x) ++ (trail ++ ']' :: r) →
      items item (s.length + 1) true s = .ok (xs.map f, ']' :: r) by
    simp only [arrayOf, h _ rfl, enclose, closeArray, skipSpace_cons (c := ']') rfl]
  rintro s rfl
  cases xs with
  | nil => simp only [List.map_nil, commaJoin, List.intercalate_nil, List.nil_append, items,
      nextItem_close htrail]
  | cons x xs =>
    have hitem := hread x (List.mem_cons_self ..) _
      (endsNumber_flatMap_append htrail (xs.map fun x => lead ++ text x) (Or.inl rfl) r)
    have hlen := length_le_length_flatMap_cons (xs.map fun x => lead ++ text x)
    rw [List.map_cons, commaJoin_cons, List.append_assoc, List.append_assoc]
    rw [items, nextItem_first hlead (hstart x (List.mem_cons_self ..))]
    simp only [hitem]
    rw [items_rest hlead htrail (fun y hy => hread y (List.mem_cons_of_mem x hy))
      (fun y hy => hstart y (List.mem_cons_of_mem x hy))]
    · rfl
    · simp only [List.length_append, List.length_map, List.length_cons] at hlen ⊢
      omega

end Arrays

section Objects

theorem quote_append (t r : Text) :
    quote t ++ r = '"' :: (t.flatMap escapeChar ++ '"' :: r) := by
  simp [quote]

theorem nextName_close {trail : Text} (ht : IsSpacing trail) (first : Bool) (r : Text) :
    nextName first (trail ++ '\x7d' :: r) = .ok (none, '\x7d' :: r) := by
  simp only [nextName, skipSpace_append ht (c := '\x7d') rfl]

theorem nextName_first {lead : Text} (hl : IsSpacing lead) (name r : Text) :
    nextName true (lead ++ (quote name ++ r)) = .ok (some name, r) := by
  rw [nextName, quote_append, skipSpace_append hl rfl]
  split
  · next h => cases h
  · next h => exact absurd (List.cons.inj h).1 (by decide)
  · next h =>
    obtain ⟨rfl, rfl⟩ := List.cons.inj h
    rw [if_pos rfl, if_pos rfl, string_flatMap]
    rfl

theorem nextName_comma {lead : Text} (hl : IsSpacing lead) (name r : Text) :
    nextName false (',' :: (lead ++ (quote name ++ r))) = .ok (some name, r) := by
  rw [nextName, skipSpace_cons (c := ',') rfl]
  split
  · next h => cases h
  · next h => exact absurd (List.cons.inj h).1 (by decide)
  · next h =>
    obtain ⟨rfl, rfl⟩ := List.cons.inj h
    simp only [Bool.false_eq_true, if_false, if_true, quote_append,
      skipSpace_append hl (c := '"') rfl, string_flatMap, Except.map]

variable {item : Reader α} {text : α → Text} {lead trail : Text} {ms : List (Text × α)}

/-- A member as it is written: its name, a colon and its value. -/
def memberText (text : α → Text) (m : Text × α) : Text := quote m.1 ++ ':' :: text m.2

/-- The members behind the first are read back up to the brace. -/
theorem members_rest (hlead : IsSpacing lead) (htrail : IsSpacing trail)
    (hread : ∀ m ∈ ms, ReadsBack item (text m.2) m.2) {fuel : Nat} (hf : ms.length < fuel)
    (r : Text) :
    members item fuel false
        ((ms.map fun m => lead ++ memberText text m).flatMap (',' :: ·) ++ (trail ++ '\x7d' :: r)) =
      .ok (ms, '\x7d' :: r) := by
  induction ms generalizing fuel with
  | nil =>
    obtain ⟨fuel, rfl⟩ : ∃ n, fuel = n + 1 := ⟨fuel - 1, by omega⟩
    simp only [List.map_nil, List.flatMap_nil, List.nil_append, members, nextName_close htrail]
  | cons m ms ih =>
    obtain ⟨fuel, rfl⟩ : ∃ n, fuel = n + 1 := ⟨fuel - 1, by omega⟩
    have hrest := ih (fun n hn => hread n (List.mem_cons_of_mem m hn)) (Nat.lt_of_succ_lt_succ hf)
    have hitem := hread m (List.mem_cons_self ..) _
      (endsNumber_flatMap_append htrail (ms.map fun m => lead ++ memberText text m) (Or.inr rfl) r)
    have hm (s : Text) : ',' :: (lead ++ memberText text m) ++ s =
        ',' :: (lead ++ (quote m.1 ++ ':' :: (text m.2 ++ s))) := by simp [memberText]
    rw [List.map_cons, List.flatMap_cons, List.append_assoc, hm, members, nextName_comma hlead]
    simp only [colon, skipSpace_cons (c := ':') rfl, hitem, hrest, Except.map]

/-- An object is read back member by member. -/
theorem objectOf_commaJoin (hlead : IsSpacing lead) (htrail : IsSpacing trail)
    (hread : ∀ m ∈ ms, ReadsBack item (text m.2) m.2) (r : Text) :
    objectOf item (commaJoin (ms.map fun m => lead ++ memberText text m) ++
      (trail ++ '\x7d' :: r)) = .ok (ms, r) := by
  suffices h : ∀ s, s = commaJoin (ms.map fun m => lead ++ memberText text m) ++
      (trail ++ '\x7d' :: r) → members item (s.length + 1) true s = .ok (ms, '\x7d' :: r) by
    simp only [objectOf, h _ rfl, enclose, closeObject, skipSpace_cons (c := '\x7d') rfl]
  rintro s rfl
  cases ms with
  | nil => simp only [List.map_nil, commaJoin, List.intercalate_nil, List.nil_append, members,
      nextName_close htrail]
  | cons m ms =>
    have hitem := hread m (List.mem_cons_self ..) _
      (endsNumber_flatMap_append htrail (ms.map fun m => lead ++ memberText text m) (Or.inr rfl) r)
    have hm (s : Text) : lead ++ memberText text m ++ s =
        lead ++ (quote m.1 ++ ':' :: (text m.2 ++ s)) := by simp [memberText]
    have hlen := length_le_length_flatMap_cons (ms.map fun m => lead ++ memberText text m)
    rw [List.map_cons, commaJoin_cons, List.append_assoc, hm, members, nextName_first hlead]
    simp only [colon, skipSpace_cons (c := ':') rfl, hitem]
    rw [members_rest hlead htrail fun n hn => hread n (List.mem_cons_of_mem m hn)]
    · rfl
    · simp only [List.length_append, List.length_map, List.length_cons] at hlen ⊢
      omega

end Objects

/-- A value that is read back from its text: its brackets nest to at most the given number of
levels, and its numbers are natural numbers. -/
inductive Value.Fits : Nat → Value → Prop where
  /-- The literal `null`. -/
  | null : Fits levels .null
  /-- A truth value. -/
  | bool (b : Bool) : Fits levels (.bool b)
  /-- A natural number. -/
  | natural (n : UInt64) : Fits levels (.number (.natural n))
  /-- A string. -/
  | string (t : Text) : Fits levels (.string t)
  /-- An array takes one level. -/
  | array {items : List Value} (h : ∀ v ∈ items, Fits levels v) : Fits (levels + 1) (.array items)
  /-- An object takes one level. -/
  | object {members : List (Text × Value)} (h : ∀ m ∈ members, Fits levels m.2) :
    Fits (levels + 1) (.object members)

theorem compactItems_eq_map (vs : List Value) : compactItems vs = vs.map Value.compact := by
  induction vs with
  | nil => rfl
  | cons v vs ih => rw [compactItems, ih, List.map_cons]

theorem compactMembers_eq_map (ms : List (Text × Value)) :
    compactMembers ms = ms.map (memberText Value.compact) := by
  induction ms with
  | nil => rfl
  | cons m ms ih => rw [compactMembers, ih, List.map_cons, memberText]

theorem not_isSpace_of_isDigit {c : Char} (h : c.isDigit = true) : isSpace c = false := by
  rw [← Bool.not_eq_true]
  intro hs
  simp only [isSpace, Bool.or_eq_true, beq_iff_eq] at hs
  rcases hs with ((rfl | rfl) | rfl) | rfl <;> exact absurd h (by decide)

/-- A reader that follows more levels reads no less. -/
theorem Value.Fits.mono {m n : Nat} {v : Value} (h : v.Fits m) (hmn : m ≤ n) : v.Fits n := by
  induction h generalizing n with
  | null => exact .null
  | bool b => exact .bool b
  | natural k => exact .natural k
  | string t => exact .string t
  | array _ ih =>
    obtain ⟨n, rfl⟩ : ∃ l, n = l + 1 := ⟨n - 1, by omega⟩
    exact .array fun v hv => ih v hv (Nat.le_of_succ_le_succ hmn)
  | object _ ih =>
    obtain ⟨n, rfl⟩ : ∃ l, n = l + 1 := ⟨n - 1, by omega⟩
    exact .object fun m hm => ih m hm (Nat.le_of_succ_le_succ hmn)

/-- The text of a value starts with a character of its own, never with a closing bracket, and with
the letter of `null` only for that literal. -/
theorem Value.Fits.exists_compact_eq_cons {levels : Nat} {v : Value} (h : v.Fits levels) :
    ∃ c t, v.compact = c :: t ∧ isSpace c = false ∧ c ≠ ']' ∧ (c = 'n' → v = .null) := by
  cases h with
  | null => exact ⟨_, _, rfl, by decide, by decide, fun _ => rfl⟩
  | bool b => cases b <;> exact ⟨_, _, rfl, by decide, by decide, fun hc => absurd hc (by decide)⟩
  | natural n =>
    obtain ⟨c, ds, he⟩ := List.exists_cons_of_ne_nil (Text.ofNat_ne_nil n.toNat)
    have hc : c.isDigit = true := Text.isDigit_of_mem_ofNat (he ▸ List.mem_cons_self ..)
    refine ⟨c, ds, he, not_isSpace_of_isDigit hc, ?_, ?_⟩ <;> rintro rfl <;>
      exact absurd hc (by decide)
  | string t => exact ⟨_, _, rfl, by decide, by decide, fun hc => absurd hc (by decide)⟩
  | array _ => exact ⟨_, _, rfl, by decide, by decide, fun hc => absurd hc (by decide)⟩
  | object _ => exact ⟨_, _, rfl, by decide, by decide, fun hc => absurd hc (by decide)⟩

theorem Value.Fits.startsElement {levels : Nat} {v : Value} (h : v.Fits levels) :
    StartsElement v.compact := by
  obtain ⟨c, t, he, hc, hb, -⟩ := h.exists_compact_eq_cons
  exact ⟨c, t, he, hc, hb⟩

/-- A value that does not start with an opening bracket is read as a scalar. -/
theorem value_eq_scalar {c : Char} (hs : isSpace c = false) (hb : c ≠ '[' ∧ c ≠ '\x7b')
    (levels : Nat) (r : Text) : value levels (c :: r) = scalar (c :: r) := by
  cases levels with
  | zero =>
    rw [value, skipSpace_cons hs]
    split
    · next h => exact absurd (List.cons.inj h).1 hb.1
    · next h => exact absurd (List.cons.inj h).1 hb.2
    · rfl
  | succ levels =>
    rw [value, skipSpace_cons hs]
    split
    · next h => exact absurd (List.cons.inj h).1 hb.1
    · next h => exact absurd (List.cons.inj h).1 hb.2
    · rfl

/-- A value that starts with a digit is read as a number. -/
theorem scalar_eq_number {c : Char} (hc : c.isDigit = true) (r : Text) :
    scalar (c :: r) = (number false (c :: r)).map fun (n, t) => (.number n, t) := by
  have hne (d : Char) (hd : d.isDigit = false) : c ≠ d := by
    rintro rfl
    rw [hc] at hd
    cases hd
  unfold scalar
  split
  case h_7 h =>
    obtain ⟨rfl, rfl⟩ := List.cons.inj h
    rw [if_pos hc]
  case h_1 h => cases h
  all_goals next h => exact absurd (List.cons.inj h).1 (hne _ (by decide))

/-- A value is read back from its compact text. -/
theorem Value.Fits.value_compact {levels : Nat} {v : Value} (h : v.Fits levels) :
    ReadsBack (value levels) v.compact v := by
  induction h with
  | @null levels => exact fun r _ => value_eq_scalar (by decide) (by decide) levels _
  | @bool levels b =>
    cases b <;> exact fun r _ => value_eq_scalar (by decide) (by decide) levels _
  | @natural levels n =>
    intro r hr
    obtain ⟨c, ds, he⟩ := List.exists_cons_of_ne_nil (Text.ofNat_ne_nil n.toNat)
    have hc : c.isDigit = true := Text.isDigit_of_mem_ofNat (he ▸ List.mem_cons_self ..)
    have hb : c ≠ '[' ∧ c ≠ '\x7b' := by
      constructor <;> rintro rfl <;> exact absurd hc (by decide)
    have hn := number_ofNat n hr
    rw [compact, Number.toText]
    rw [he, List.cons_append] at hn ⊢
    rw [value_eq_scalar (not_isSpace_of_isDigit hc) hb, scalar_eq_number hc, hn]
    rfl
  | @string levels t =>
    intro r _
    rw [compact, quote_append, value_eq_scalar (by decide) (by decide), scalar, string_flatMap]
    rfl
  | @array levels items h ih =>
    intro r _
    have hi := arrayOf_commaJoin (f := id) isSpacing_nil isSpacing_nil ih
      (fun v hv => (h v hv).startsElement) r
    rw [List.map_id] at hi
    rw [compact, compactItems_eq_map, List.cons_append, List.cons_append, List.append_assoc, value,
      skipSpace_cons rfl]
    simp only [List.nil_append] at hi
    simp only [List.singleton_append, hi, Except.map]
  | @object levels members h ih =>
    intro r _
    have hm := objectOf_commaJoin isSpacing_nil isSpacing_nil ih r
    rw [compact, compactMembers_eq_map, List.cons_append, List.cons_append, List.append_assoc,
      value, skipSpace_cons rfl]
    simp only [List.nil_append] at hm
    simp only [List.singleton_append, hm, Except.map]

/-- The compact text determines the value. -/
theorem Value.compact_inj {levels : Nat} {v w : Value} (hv : v.Fits levels) (hw : w.Fits levels)
    (h : v.compact = w.compact) : v = w := by
  have hend : EndsNumber [] := fun c hc => by cases hc
  have hread := hv.value_compact [] hend
  rw [h, hw.value_compact [] hend] at hread
  exact (Prod.mk.inj (Except.ok.inj hread)).1.symm

end JobSearch.Json
