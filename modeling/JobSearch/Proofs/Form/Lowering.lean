import JobSearch.Proofs.Form.RoundTrip
import JobSearch.Proofs.Json.Number
import JobSearch.Proofs.Json.Place

/-!
# Which entries are parts

Lowering looks at a type and an input and gives a part of that type with that input or refuses both.
What it takes for which type is said here without the functions that check it. Only two inputs come
out in another form than they went in: one that stands for the present, which a month does without,
and a salary range whose upper bound is `null`, which has none.
-/

namespace JobSearch.PartKind

theorem ofName?_eq_some_iff {t : Text} {k : PartKind} : ofName? t = some k ↔ k.name = t := by
  constructor
  · intro h
    have hk := List.find?_some h
    exact beq_iff_eq.mp hk
  · rintro rfl
    exact ofName?_name k

theorem ofName?_eq_none_iff {t : Text} : ofName? t = none ↔ ∀ k : PartKind, k.name ≠ t := by
  rw [Option.eq_none_iff_forall_ne_some]
  exact forall_congr' fun k => not_congr ofName?_eq_some_iff

end JobSearch.PartKind

namespace JobSearch.Form

open Json

/-- An input that stands for the present. -/
inductive IsFalsy : Option Value → Prop where
  /-- No input. -/
  | missing : IsFalsy none
  /-- The literal `null`. -/
  | null : IsFalsy (some .null)
  /-- The literal `false`. -/
  | bool : IsFalsy (some (.bool false))
  /-- A number of value zero. -/
  | zero {n : Number} (h : n.toRat = 0) : IsFalsy (some (.number n))
  /-- The empty string. -/
  | empty : IsFalsy (some (.string []))

/-- A value that is a bound of a salary range. -/
inductive IsBound : Value → Prop where
  /-- No bound. -/
  | null : IsBound .null
  /-- A natural number of 64 bits. -/
  | natural (n : UInt64) : IsBound (.number (.natural n))

/-- The inputs that parts of a kind take. -/
inductive Accepts : PartKind → Option Value → Prop where
  /-- A text, a site or a date is a string and not empty. -/
  | required {k : PartKind} {t : Text} (hk : k ∈ [.text, .site, .after, .before]) (ht : t ≠ []) :
    Accepts k (some (.string t))
  /-- A month is named by any string. -/
  | named (t : Text) : Accepts .lastMonth (some (.string t))
  /-- The present need not be named. -/
  | present {input : Option Value} (h : IsFalsy input) : Accepts .lastMonth input
  /-- A salary range has one bound. -/
  | lower {low : Value} (hl : IsBound low) : Accepts .salary (some (.array [low]))
  /-- A salary range has two bounds. -/
  | both {low high : Value} (hl : IsBound low) (hh : IsBound high) :
    Accepts .salary (some (.array [low, high]))

/-- The numbers that count as zero are those of value zero, in whatever way they are written. -/
theorem isZero_iff (n : Number) : isZero n = true ↔ n.toRat = 0 := by
  cases n with
  | natural n =>
    rw [isZero, beq_iff_eq, Number.toRat, Nat.cast_eq_zero, ← UInt64.toNat_inj]
    rfl
  | negative n => rw [isZero, beq_iff_eq, Number.toRat, neg_eq_zero, Nat.cast_eq_zero]
  | float x => exact x.isZero_iff

theorem isBound_iff {v : Value} : IsBound v ↔ ∃ b, v = SalaryRange.boundJson b := by
  constructor
  · rintro (_ | n)
    · exact ⟨none, rfl⟩
    · exact ⟨some n, rfl⟩
  · rintro ⟨_ | n, rfl⟩
    · exact .null
    · exact .natural n

theorem optionalString_eq_ok_iff {k : PartKind} {input : Option Value} {month : Option Text} :
    optionalString k input = .ok month ↔
      IsFalsy input ∧ month = none ∨ ∃ t, t ≠ [] ∧ input = some (.string t) ∧ month = some t := by
  constructor
  · intro h
    unfold optionalString at h
    split at h
    · exact Or.inl ⟨.missing, (Except.ok.inj h).symm⟩
    · exact Or.inl ⟨.null, (Except.ok.inj h).symm⟩
    · exact Or.inl ⟨.bool, (Except.ok.inj h).symm⟩
    · next t =>
      cases t with
      | nil => exact Or.inl ⟨.empty, (Except.ok.inj h).symm⟩
      | cons c t => exact Or.inr ⟨_, List.cons_ne_nil c t, rfl, (Except.ok.inj h).symm⟩
    · next n =>
      split at h
      · next hn => exact Or.inl ⟨.zero ((isZero_iff n).mp hn), (Except.ok.inj h).symm⟩
      · cases h
    · cases h
  · rintro (⟨_ | _ | _ | @⟨n, hn⟩ | _, rfl⟩ | ⟨t, ht, rfl, rfl⟩)
    case inl.zero => exact if_pos ((isZero_iff n).mpr hn)
    case inr =>
      obtain ⟨c, r, rfl⟩ := List.exists_cons_of_ne_nil ht
      rfl
    all_goals rfl

theorem bound_eq_ok_iff {v : Value} {b : Option UInt64} :
    bound v = .ok b ↔ v = SalaryRange.boundJson b := by
  constructor
  · intro h
    unfold bound at h
    split at h
    · obtain rfl := Except.ok.inj h
      rfl
    · obtain rfl := Except.ok.inj h
      rfl
    · cases h
    · cases h
  · rintro rfl
    cases b <;> rfl

theorem salaryRange_eq_ok_iff {input : Option Value} {r : SalaryRange} :
    salaryRange input = .ok r ↔ input = some r.json ∨
      r.max = none ∧ input = some (.array [SalaryRange.boundJson r.min, .null]) := by
  constructor
  · intro h
    unfold salaryRange at h
    split at h
    · obtain ⟨min, hmin, rfl⟩ := map_eq_ok_iff.mp h
      rw [bound_eq_ok_iff.mp hmin]
      exact Or.inl rfl
    · split at h
      · cases h
      · next hmin =>
        obtain ⟨max, hmax, rfl⟩ := map_eq_ok_iff.mp h
        rw [bound_eq_ok_iff.mp hmin, bound_eq_ok_iff.mp hmax]
        cases max with
        | none => exact Or.inr ⟨rfl, rfl⟩
        | some max => exact Or.inl rfl
    all_goals cases h
  · obtain ⟨min, max⟩ := r
    rintro (rfl | ⟨rfl, rfl⟩)
    · exact Part.salaryRange_json ⟨min, max⟩
    · cases min <;> rfl

/-- The input describes the part, whose kind names its type. -/
inductive Describes : Option Value → Part → Prop where
  /-- A free text is a string and not empty. -/
  | text {t : Text} (ht : t ≠ []) : Describes (some (.string t)) (.text t)
  /-- A site is a string and not empty. -/
  | site {t : Text} (ht : t ≠ []) : Describes (some (.string t)) (.site t)
  /-- The date after which to search is a string and not empty. -/
  | after {t : Text} (ht : t ≠ []) : Describes (some (.string t)) (.after t)
  /-- The date before which to search is a string and not empty. -/
  | before {t : Text} (ht : t ≠ []) : Describes (some (.string t)) (.before t)
  /-- A month is named by a string. -/
  | named {t : Text} (ht : t ≠ []) : Describes (some (.string t)) (.lastMonth (some t))
  /-- The present need not be named. -/
  | present {input : Option Value} (h : IsFalsy input) : Describes input (.lastMonth none)
  /-- A salary range is the array of its bounds. -/
  | range (r : SalaryRange) : Describes (some r.json) (.salary r)
  /-- A range without an upper bound may have `null` in its place. -/
  | openAbove (min : Option UInt64) :
    Describes (some (.array [SalaryRange.boundJson min, .null])) (.salary ⟨min, none⟩)

/-- Lowering gives exactly the part of the type that the input describes. -/
theorem lower_eq_ok_iff {e : Entry} {p : Part} :
    e.lower = .ok p ↔ p.kind.name = e.type ∧ Describes e.input p := by
  constructor
  · intro h
    unfold Entry.lower at h
    split at h
    case h_5 hk =>
      obtain ⟨month, hm, rfl⟩ := map_eq_ok_iff.mp h
      refine ⟨PartKind.ofName?_eq_some_iff.mp hk, ?_⟩
      rcases optionalString_eq_ok_iff.mp hm with ⟨hf, rfl⟩ | ⟨t, ht, hi, rfl⟩
      · exact .present hf
      · exact hi ▸ .named ht
    case h_6 hk =>
      obtain ⟨r, hr, rfl⟩ := map_eq_ok_iff.mp h
      refine ⟨PartKind.ofName?_eq_some_iff.mp hk, ?_⟩
      rcases salaryRange_eq_ok_iff.mp hr with hi | ⟨hmax, hi⟩
      · exact hi ▸ .range r
      · obtain ⟨min, max⟩ := r
        obtain rfl : max = none := hmax
        exact hi ▸ .openAbove min
    case h_7 => cases h
    all_goals
      next hk =>
        obtain ⟨t, ht, rfl⟩ := map_eq_ok_iff.mp h
        obtain ⟨hi, hne⟩ := requiredString_eq_ok_iff.mp ht
        refine ⟨PartKind.ofName?_eq_some_iff.mp hk, ?_⟩
        rw [hi]
        constructor
        exact hne
  · rintro ⟨hk, hp⟩
    obtain ⟨type, input⟩ := e
    obtain rfl : p.kind.name = type := hk
    rw [Entry.lower, PartKind.ofName?_name]
    cases hp with
    | text ht | site ht | after ht | before ht =>
      exact map_eq_ok_iff.mpr ⟨_, requiredString_eq_ok_iff.mpr ⟨rfl, ht⟩, rfl⟩
    | named ht =>
      exact map_eq_ok_iff.mpr ⟨_, optionalString_eq_ok_iff.mpr (Or.inr ⟨_, ht, rfl, rfl⟩), rfl⟩
    | present hf =>
      exact map_eq_ok_iff.mpr ⟨_, optionalString_eq_ok_iff.mpr (Or.inl ⟨hf, rfl⟩), rfl⟩
    | range r =>
      exact map_eq_ok_iff.mpr ⟨r, salaryRange_eq_ok_iff.mpr (Or.inl rfl), rfl⟩
    | openAbove min =>
      exact map_eq_ok_iff.mpr ⟨_, salaryRange_eq_ok_iff.mpr (Or.inr ⟨rfl, rfl⟩), rfl⟩

/-- The inputs that parts of a kind take are those that describe one. -/
theorem accepts_iff {k : PartKind} {input : Option Value} :
    Accepts k input ↔ ∃ p : Part, p.kind = k ∧ Describes input p := by
  constructor
  · rintro (@⟨_, t, hk, ht⟩ | t | hf | hl | ⟨hl, hh⟩)
    · simp only [List.mem_cons, List.not_mem_nil, or_false] at hk
      rcases hk with rfl | rfl | rfl | rfl
      · exact ⟨.text t, rfl, .text ht⟩
      · exact ⟨.site t, rfl, .site ht⟩
      · exact ⟨.after t, rfl, .after ht⟩
      · exact ⟨.before t, rfl, .before ht⟩
    · by_cases ht : t = []
      · exact ⟨.lastMonth none, rfl, ht ▸ .present .empty⟩
      · exact ⟨.lastMonth (some t), rfl, .named ht⟩
    · exact ⟨.lastMonth none, rfl, .present hf⟩
    · obtain ⟨min, rfl⟩ := isBound_iff.mp hl
      exact ⟨_, rfl, .range ⟨min, none⟩⟩
    · obtain ⟨min, rfl⟩ := isBound_iff.mp hl
      obtain ⟨_ | max, rfl⟩ := isBound_iff.mp hh
      · exact ⟨_, rfl, .openAbove min⟩
      · exact ⟨_, rfl, .range ⟨min, some max⟩⟩
  · rintro ⟨p, rfl, hp⟩
    cases hp with
    | text ht | site ht | after ht | before ht => exact .required (by simp [Part.kind]) ht
    | named ht => exact .named _
    | present hf => exact .present hf
    | range r =>
      obtain ⟨min, _ | max⟩ := r
      · exact .lower (isBound_iff.mpr ⟨min, rfl⟩)
      · exact .both (isBound_iff.mpr ⟨min, rfl⟩) (.natural max)
    | openAbove min => exact .both (isBound_iff.mpr ⟨min, rfl⟩) .null

theorem endsInWord_kindName (v : Value) : endsInWord v.kindName = true := by
  cases v <;> rfl

/-- The error is about the input of a part of this kind and says so in words that do not end with a
digit. -/
def IsRefusal (k : PartKind) (e : QueryError) : Prop :=
  ∃ problem, e = .invalidInput k problem ∧ endsInWord problem.message = true

theorem isRefusal_missing (k : PartKind) : IsRefusal k (.invalidInput k .missing) :=
  ⟨_, rfl, by decide⟩

theorem isRefusal_notString (k : PartKind) (v : Value) :
    IsRefusal k (.invalidInput k (.notString v.kindName)) :=
  ⟨_, rfl, endsInWord_append _ (endsInWord_kindName v)⟩

theorem isRefusal_of_requiredString {k : PartKind} {input : Option Value} {e : QueryError}
    (h : requiredString k input = .error e) : IsRefusal k e := by
  unfold requiredString at h
  split at h
  · split at h
    · exact Except.error.inj h ▸ isRefusal_missing k
    · cases h
  · exact Except.error.inj h ▸ isRefusal_missing k
  · exact Except.error.inj h ▸ isRefusal_missing k
  · exact Except.error.inj h ▸ isRefusal_notString k _

theorem isRefusal_of_optionalString {k : PartKind} {input : Option Value} {e : QueryError}
    (h : optionalString k input = .error e) : IsRefusal k e := by
  unfold optionalString at h
  split at h
  case h_5 =>
    split at h
    · cases h
    · exact Except.error.inj h ▸ isRefusal_notString k _
  case h_6 => exact Except.error.inj h ▸ isRefusal_notString k _
  all_goals cases h

theorem isRefusal_of_bound {v : Value} {e : QueryError} (h : bound v = .error e) :
    IsRefusal .salary e := by
  unfold bound at h
  split at h
  · cases h
  · cases h
  · obtain rfl := Except.error.inj h
    exact ⟨_, rfl, endsInWord_append _ (by decide)⟩
  · obtain rfl := Except.error.inj h
    exact ⟨_, rfl, endsInWord_append _ (endsInWord_kindName v)⟩

theorem isRefusal_of_salaryRange {input : Option Value} {e : QueryError}
    (h : salaryRange input = .error e) : IsRefusal .salary e := by
  unfold salaryRange at h
  split at h
  · exact isRefusal_of_bound (map_eq_error_iff.mp h)
  · split at h
    · next hlow => exact Except.error.inj h ▸ isRefusal_of_bound hlow
    · exact isRefusal_of_bound (map_eq_error_iff.mp h)
  · obtain rfl := Except.error.inj h
    exact ⟨_, rfl, by decide⟩
  · exact Except.error.inj h ▸ isRefusal_missing .salary
  · exact Except.error.inj h ▸ isRefusal_missing .salary
  · obtain rfl := Except.error.inj h
    exact ⟨_, rfl, endsInWord_append _ (endsInWord_kindName _)⟩

/-- Lowering refuses the input of a part or, where no part has the type, the type. -/
theorem isRefusal_or_of_lower {x : Entry} {e : QueryError} (h : x.lower = .error e) :
    (∃ k : PartKind, k.name = x.type ∧ IsRefusal k e) ∨
      (∀ k : PartKind, k.name ≠ x.type) ∧ e = .unknownPartType x.type := by
  unfold Entry.lower at h
  split at h
  case h_5 hk =>
    exact Or.inl ⟨.lastMonth, PartKind.ofName?_eq_some_iff.mp hk,
      isRefusal_of_optionalString (map_eq_error_iff.mp h)⟩
  case h_6 hk =>
    exact Or.inl ⟨.salary, PartKind.ofName?_eq_some_iff.mp hk,
      isRefusal_of_salaryRange (map_eq_error_iff.mp h)⟩
  case h_7 hk =>
    exact Or.inr ⟨PartKind.ofName?_eq_none_iff.mp hk, (Except.error.inj h).symm⟩
  all_goals
    next hk =>
      exact Or.inl ⟨_, PartKind.ofName?_eq_some_iff.mp hk,
        isRefusal_of_requiredString (map_eq_error_iff.mp h)⟩

/-- What a part is written with is the input that it was given, unless that was one for the present
or an upper bound of `null`. -/
theorem Describes.inputJson_eq {input : Option Value} {p : Part} (h : Describes input p)
    (hf : ¬(p.kind = .lastMonth ∧ IsFalsy input))
    (hn : ∀ low, ¬(p.kind = .salary ∧ input = some (.array [low, .null]))) :
    input = some p.inputJson := by
  cases h with
  | text _ | site _ | after _ | before _ | named _ => rfl
  | present h => exact absurd ⟨rfl, h⟩ hf
  | range r => rfl
  | openAbove min => exact absurd ⟨rfl, rfl⟩ (hn _)

/-- Every input for the present gives a month without one. -/
theorem Describes.inputJson_of_isFalsy {input : Option Value} {p : Part} (h : Describes input p)
    (hk : p.kind = .lastMonth) (hf : IsFalsy input) : p.inputJson = .null := by
  cases h with
  | text _ | site _ | after _ | before _ => cases hk
  | named ht =>
    cases hf
    exact absurd rfl ht
  | present _ => rfl
  | range r => cases hk
  | openAbove min => cases hk

/-- An upper bound of `null` is left out. -/
theorem Describes.inputJson_of_null {low : Value} {p : Part}
    (h : Describes (some (.array [low, .null])) p) (hk : p.kind = .salary) :
    p.inputJson = .array [low] := by
  generalize hi : some (Value.array [low, .null]) = input at h
  cases h with
  | text _ | site _ | after _ | before _ | named _ => cases hi
  | present _ => cases hk
  | range r =>
    obtain ⟨min, _ | max⟩ := r
    · cases hi
    · cases hi
  | openAbove min =>
    cases hi
    rfl

/-- An entry is lowered exactly if its type names a kind that takes its input. The part is of that
kind, and its own input is the one given, but for `null` in place of an input for the present and no
upper bound in place of `null`. An input that the kind does not take is refused for that kind, and a
type that names none is unknown. A number counts as a bound exactly if it is written as a natural
number: without a sign, a fraction, an exponent or zeros in front. -/
theorem lower_takes_exactly (e : Entry) :
    ((∃ p, e.lower = .ok p) ↔ ∃ k : PartKind, k.name = e.type ∧ Accepts k e.input) ∧
    (∀ p, e.lower = .ok p →
      p.kind.name = e.type ∧
      (p.kind = .lastMonth ∧ IsFalsy e.input → p.inputJson = .null) ∧
      (∀ low, p.kind = .salary ∧ e.input = some (.array [low, .null]) →
        p.inputJson = .array [low]) ∧
      (¬(p.kind = .lastMonth ∧ IsFalsy e.input) →
        (∀ low, ¬(p.kind = .salary ∧ e.input = some (.array [low, .null]))) →
        e.input = some p.inputJson)) ∧
    (∀ k : PartKind, k.name = e.type → ¬Accepts k e.input →
      ∃ problem, e.lower = .error (.invalidInput k problem)) ∧
    ((∀ k : PartKind, k.name ≠ e.type) → e.lower = .error (.unknownPartType e.type)) ∧
    ∀ (levels : Nat) (s r : Text) (n : UInt64),
      value levels s = .ok (.number (.natural n), r) ↔
        skipSpace s = Text.ofNat n.toNat ++ r ∧ EndsNumber r := by
  have haccepts : (∃ p, e.lower = .ok p) ↔
      ∃ k : PartKind, k.name = e.type ∧ Accepts k e.input := by
    simp only [lower_eq_ok_iff, accepts_iff]
    constructor
    · rintro ⟨p, hk, hp⟩
      exact ⟨p.kind, hk, p, rfl, hp⟩
    · rintro ⟨_, hk, p, rfl, hp⟩
      exact ⟨p, hk, hp⟩
  refine ⟨haccepts, fun p h => ?_, fun k hk hn => ?_, fun hn => ?_, fun levels s r n =>
    value_eq_natural_iff⟩
  · obtain ⟨hk, hp⟩ := lower_eq_ok_iff.mp h
    exact ⟨hk, fun ⟨hm, hf⟩ => hp.inputJson_of_isFalsy hm hf,
      fun low ⟨hs, hi⟩ => (hi ▸ hp).inputJson_of_null hs, hp.inputJson_eq⟩
  · cases h : e.lower with
    | ok p =>
      obtain ⟨l, hl, ha⟩ := haccepts.mp ⟨p, h⟩
      obtain rfl := PartKind.name_inj.mp (hl.trans hk.symm)
      exact absurd ha hn
    | error d =>
      rcases isRefusal_or_of_lower h with ⟨l, hl, problem, rfl, -⟩ | ⟨hnone, -⟩
      · obtain rfl := PartKind.name_inj.mp (hl.trans hk.symm)
        exact ⟨problem, rfl⟩
      · exact absurd hk (hnone k)
  · cases h : e.lower with
    | ok p => exact absurd (lower_eq_ok_iff.mp h).1 (hn p.kind)
    | error d =>
      rcases isRefusal_or_of_lower h with ⟨l, hl, -⟩ | ⟨-, rfl⟩
      · exact absurd hl (hn l)
      · rfl

/-- A range from a bound up loses its `null`, a minus zero is the present, a site is kept, an array
in place of a bound is refused, a type that names no kind is unknown, and the highest bound of 64
bits is read from its digits. -/
theorem lower_takes_exactly_corners :
    let upward : Entry := ⟨"salary".toList, some (.array [.number (.natural 5), .null])⟩
    let now : Entry := ⟨"last-month".toList, some (.number (.float ⟨true, 0, 0⟩))⟩
    let site : Entry := ⟨"site".toList, some (.string "a".toList)⟩
    let nested : Entry := ⟨"salary".toList, some (.array [.array [.null]])⟩
    let shop : Entry := ⟨"shop".toList, none⟩
    (upward.lower = .ok (.salary ⟨some 5, none⟩) ∧
      (Part.salary ⟨some 5, none⟩).inputJson = .array [.number (.natural 5)]) ∧
    (now.lower = .ok (.lastMonth none) ∧ IsFalsy now.input ∧
      (Part.lastMonth none).inputJson = .null) ∧
    (site.lower = .ok (.site "a".toList) ∧
      site.input = some (Part.site "a".toList).inputJson) ∧
    (¬Accepts .salary nested.input ∧
      ∃ problem, nested.lower = .error (.invalidInput .salary problem)) ∧
    ((∀ k : PartKind, k.name ≠ shop.type) ∧ shop.lower = .error (.unknownPartType shop.type)) ∧
    value 0 " 18446744073709551615]".toList =
      .ok (.number (.natural 18446744073709551615), "]".toList) := by
  intro upward now site nested shop
  have hupward : upward.lower = .ok (.salary ⟨some 5, none⟩) := by decide
  have hnow : now.lower = .ok (.lastMonth none) := by decide
  have hfalsy : IsFalsy now.input := .zero ((isZero_iff _).mp rfl)
  have hsite : site.lower = .ok (.site "a".toList) := by decide
  have hnested : ¬Accepts .salary nested.input := by
    rintro (_ | _ | _ | (_ | _) | _)
  have hshop : ∀ k : PartKind, k.name ≠ shop.type := by
    intro k
    cases k <;> decide
  have hend : EndsNumber "]".toList := endsNumber_cons (Or.inr (Or.inl rfl)) []
  refine ⟨⟨hupward, ((lower_takes_exactly upward).2.1 _ hupward).2.2.1 _ ⟨rfl, rfl⟩⟩,
    ⟨hnow, hfalsy, ((lower_takes_exactly now).2.1 _ hnow).2.1 ⟨rfl, hfalsy⟩⟩,
    ⟨hsite, ((lower_takes_exactly site).2.1 _ hsite).2.2.2 (fun h => nomatch h.1)
      fun low h => nomatch h.1⟩,
    ⟨hnested, (lower_takes_exactly nested).2.2.1 .salary rfl hnested⟩,
    ⟨hshop, (lower_takes_exactly shop).2.2.2.1 hshop⟩, ?_⟩
  exact ((lower_takes_exactly shop).2.2.2.2 0 _ _ _).mpr ⟨by decide, hend⟩

end JobSearch.Form
