import Mathlib.Data.List.TakeDrop
import JobSearch.Json.Error
import JobSearch.Proofs.Text.Number

/-!
# Places at the end of messages

The message of an error ends with a place, and a message with which a value is refused may end with
one of its own: it is then taken for the place of the refusal. So the words of a refusal are shown
in full unless they end with a place, and then up to it.
-/

namespace JobSearch.Json

/-- The words of a place. -/
def placeText (line column : Text) : Text :=
  " at line ".toList ++ (line ++ (" column ".toList ++ column))

/-- The text ends with a place behind `before`: a line and a column in decimal digits, perhaps with
zeros in front, each below 2^64. -/
def EndsWithPlace (t before : Text) (p : Position) : Prop :=
  ∃ line column : Text, t = before ++ placeText line column ∧
    Text.toNat? line = some p.line ∧ p.line ≤ Text.maxWord ∧
    Text.toNat? column = some p.column ∧ p.column ≤ Text.maxWord

/-- The text ends, and not with a digit. -/
def endsInWord (t : Text) : Bool := t.getLast?.any fun c => !c.isDigit

theorem endsInWord_append (t : Text) {u : Text} (hu : endsInWord u = true) :
    endsInWord (t ++ u) = true := by
  obtain ⟨c, hc, hd⟩ := (Option.any_eq_true ..).mp hu
  rw [endsInWord, List.getLast?_append, hc]
  exact hd

/-- A place ends with a digit. -/
theorem not_endsWithPlace_of_endsInWord {t : Text} (h : endsInWord t = true) (before : Text)
    (p : Position) : ¬EndsWithPlace t before p := by
  rintro ⟨line, column, rfl, -, -, hcolumn, -⟩
  obtain ⟨hne, hd, -⟩ := Text.toNat?_eq_some_iff.mp hcolumn
  have hlast : before ++ placeText line column =
      before ++ (" at line ".toList ++ (line ++ " column ".toList)) ++ column := by
    unfold placeText
    simp only [List.append_assoc]
  rw [hlast, endsInWord, List.getLast?_append, List.getLast?_eq_some_getLast hne, Option.some_or,
    Option.any_some, hd _ (List.getLast_mem hne)] at h
  cases h

section

variable {needle t before after : Text}

theorem eq_append_of_cutAtLast? (h : cutAtLast? needle t = some (before, after)) :
    t = before ++ (needle ++ after) := by
  induction t generalizing before with
  | nil => cases h
  | cons c r ih =>
    rw [cutAtLast?] at h
    split at h
    · next hr =>
      obtain ⟨rfl, rfl⟩ := Prod.mk.inj (Option.some.inj h)
      exact congrArg (c :: ·) (ih hr)
    · split at h
      · next hp =>
        obtain ⟨rfl, rfl⟩ := Prod.mk.inj (Option.some.inj h)
        exact (List.prefix_iff_eq_append.mp (List.isPrefixOf_iff_prefix.mp hp)).symm
      · cases h

/-- What holds a character that the text lacks does not stand in the text. -/
theorem cutAtLast?_eq_none {c : Char} (hc : c ∈ needle) (ht : c ∉ t) :
    cutAtLast? needle t = none := by
  induction t with
  | nil => rfl
  | cons d r ih =>
    have hp : needle.isPrefixOf (d :: r) = false := by
      rw [← Bool.not_eq_true, List.isPrefixOf_iff_prefix]
      exact fun hp => ht (hp.subset hc)
    simp only [cutAtLast?, ih fun hm => ht (List.mem_cons_of_mem d hm), hp, Bool.false_eq_true,
      if_false]

/-- A needle that does not stand behind its own first character is cut off at the front. -/
theorem cutAtLast?_self {c : Char} {w : Text} (h : cutAtLast? (c :: w) (w ++ after) = none) :
    cutAtLast? (c :: w) (c :: w ++ after) = some ([], after) := by
  have hp : (c :: w).isPrefixOf (c :: (w ++ after)) = true :=
    List.isPrefixOf_iff_prefix.mpr (List.prefix_append (c :: w) after)
  rw [List.cons_append, cutAtLast?, h]
  dsimp only
  rw [if_pos hp, ← List.cons_append, List.drop_left]

/-- What starts with the last `needle` is cut there, whatever stands before it. -/
theorem cutAtLast?_append (h : cutAtLast? needle t = some ([], after)) (before : Text) :
    cutAtLast? needle (before ++ t) = some (before, after) := by
  induction before with
  | nil => exact h
  | cons c before ih => simp only [List.cons_append, cutAtLast?, ih]

end

/-- The words of a place hold no other: the one letter `a` in them is the first. -/
theorem cutAtLast?_placeText {line column : Text} (hl : ∀ c ∈ line, c.isDigit = true)
    (hc : ∀ c ∈ column, c.isDigit = true) :
    cutAtLast? " at line ".toList (placeText line column) =
      some ([], line ++ (" column ".toList ++ column)) := by
  have hdigits {t : Text} (ht : ∀ c ∈ t, c.isDigit = true) : 'a' ∉ t :=
    fun h => absurd (ht 'a' h) (by decide)
  have htail : 'a' ∉ "t line ".toList ++ (line ++ (" column ".toList ++ column)) := by
    simp only [List.mem_append, hdigits hl, hdigits hc, or_false, false_or]
    decide
  have hneedle : " at line ".toList = ' ' :: 'a' :: "t line ".toList := by decide
  unfold placeText
  rw [hneedle]
  apply cutAtLast?_self
  rw [List.cons_append, cutAtLast?, cutAtLast?_eq_none (by simp) htail]
  rfl

theorem span_isDigit_append {ds : Text} (hd : ∀ c ∈ ds, c.isDigit = true) {c : Char}
    (hc : c.isDigit = false) (r : Text) :
    (ds ++ c :: r).span Char.isDigit = (ds, c :: r) := by
  rw [List.span_eq_takeWhile_dropWhile, List.takeWhile_append_of_pos hd,
    List.dropWhile_append_of_pos hd, List.takeWhile_cons_of_neg (by simp [hc]),
    List.dropWhile_cons_of_neg (by simp [hc]), List.append_nil]

/-- What is split off at the end of a message is a place. -/
theorem endsWithPlace_of_splitPlace? {t before : Text} {p : Position}
    (h : splitPlace? t = some (before, p)) : EndsWithPlace t before p := by
  unfold splitPlace? at h
  split at h
  · cases h
  · next start after hcut =>
    rw [List.span_eq_takeWhile_dropWhile] at h
    dsimp only at h
    split at h
    · next hmiddle =>
      split at h
      · next m n hm hn =>
        split at h
        · next hcolumn =>
          obtain ⟨rfl, rfl⟩ := Prod.mk.inj (Option.some.inj h)
          have hline : ∀ c ∈ after.takeWhile Char.isDigit, c.isDigit = true :=
            List.all_eq_true.mp List.all_takeWhile
          have hrest : " column ".toList ++ (after.dropWhile Char.isDigit).drop 8 =
              after.dropWhile Char.isDigit :=
            List.prefix_iff_eq_append.mp (List.isPrefixOf_iff_prefix.mp hmiddle)
          refine ⟨after.takeWhile Char.isDigit, (after.dropWhile Char.isDigit).drop 8, ?_,
            (Text.toWord?_eq_some_iff_of_isDigit hline).mp hm, Nat.le_of_lt_succ m.toNat_lt,
            (Text.toWord?_eq_some_iff_of_isDigit (List.all_eq_true.mp hcolumn)).mp hn,
            Nat.le_of_lt_succ n.toNat_lt⟩
          unfold placeText
          rw [hrest, List.takeWhile_append_dropWhile]
          exact eq_append_of_cutAtLast? hcut
        · cases h
      · cases h
    · cases h

/-- The place at the end of a message is split off exactly where there is one. -/
theorem splitPlace?_eq_some_iff {t before : Text} {p : Position} :
    splitPlace? t = some (before, p) ↔ EndsWithPlace t before p := by
  constructor
  · exact endsWithPlace_of_splitPlace?
  · rintro ⟨line, column, rfl, hline, hlmax, hcolumn, hcmax⟩
    have hl := (Text.toNat?_eq_some_iff.mp hline).2.1
    have hc := (Text.toNat?_eq_some_iff.mp hcolumn).2.1
    have hspan : (line ++ (" column ".toList ++ column)).span Char.isDigit =
        (line, " column ".toList ++ column) := span_isDigit_append hl rfl _
    have hprefix : " column ".toList.isPrefixOf (" column ".toList ++ column) = true :=
      List.isPrefixOf_iff_prefix.mpr (List.prefix_append ..)
    have hdrop : (" column ".toList ++ column).drop 8 = column := List.drop_left' rfl
    simp only [splitPlace?, cutAtLast?_append (cutAtLast?_placeText hl hc), hspan, hprefix, hdrop,
      Text.toWord?_of_toNat? hline hlmax, Text.toWord?_of_toNat? hcolumn hcmax,
      List.all_eq_true.mpr hc, UInt64.toNat_ofNat_of_lt' (Nat.lt_succ_of_le hlmax),
      UInt64.toNat_ofNat_of_lt' (Nat.lt_succ_of_le hcmax), if_true]

/-- A message ends with the place of its error. -/
theorem Error.message_eq (e : Error) : e.message =
    e.cause.describe ++ placeText (Text.ofNat e.position.line) (Text.ofNat e.position.column) := by
  unfold Error.message placeText
  simp only [List.append_assoc]

/-- A refusal whose words end with no place is shown with all its words. -/
theorem Fault.cause_refused {message : Text} (h : ∀ before p, ¬EndsWithPlace message before p)
    (rest text : Text) (close : Text → Text) :
    (((refused message rest).settle close).inText text).cause = .refused message := by
  have hsplit : splitPlace? message = none := by
    cases hs : splitPlace? message with
    | none => rfl
    | some found => exact absurd (splitPlace?_eq_some_iff.mp hs) (h found.1 found.2)
  rw [refused, hsplit]
  rfl

/-- A refusal whose words end with a place is shown with the words before it, and at that place
unless its line is zero. -/
theorem Fault.refused_of_endsWithPlace {message before : Text} {p : Position}
    (h : EndsWithPlace message before p) (rest text : Text) (close : Text → Text) :
    (((refused message rest).settle close).inText text).cause = .refused before ∧
      (p.line ≠ 0 → (((refused message rest).settle close).inText text).position = p) := by
  rw [refused, splitPlace?_eq_some_iff.mpr h]
  dsimp only
  split
  · next hline => exact ⟨rfl, fun hn => absurd hline hn⟩
  · exact ⟨rfl, fun _ => rfl⟩

end JobSearch.Json
