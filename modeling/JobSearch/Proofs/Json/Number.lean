import Mathlib.Algebra.Field.Rat
import Mathlib.Algebra.GroupWithZero.Basic
import Mathlib.Data.List.DropRight
import Mathlib.Tactic.NormNum
import JobSearch.Proofs.Json.Compact
import JobSearch.Proofs.Results

/-!
# What numbers mean

A number is read as a natural one exactly from the digits in which it is written, so a sign, a
fraction, an exponent, a leading zero or a number beyond 64 bits never gives one. Every number has a
rational value, which is zero in whatever way a zero is written.
-/

namespace JobSearch.Json

section

variable {minus : Bool} {n : Nat} {scale : Int} {s r : Text} {k : UInt64}

theorem floatOf_ne_natural : floatOf minus n scale s ≠ .ok (.natural k, r) := by
  unfold floatOf
  split <;> exact nofun

theorem exponentPart_ne_natural : exponentPart minus n scale s ≠ .ok (.natural k, r) := by
  unfold exponentPart
  dsimp only
  split
  · exact nofun
  · split
    · exact nofun
    · split
      · exact floatOf_ne_natural
      -- The sign of the exponent decides whether the number is too large or zero.
      · split <;> split <;> exact nofun

theorem exponentPart?_ne_natural : exponentPart? minus n scale s ≠ .ok (.natural k, r) := by
  unfold exponentPart?
  split
  · exact exponentPart_ne_natural
  · exact exponentPart_ne_natural
  · exact floatOf_ne_natural

theorem fractionPart_ne_natural : fractionPart minus n scale s ≠ .ok (.natural k, r) := by
  unfold fractionPart
  dsimp only
  split
  · exact exponentPart?_ne_natural
  · split
    · split <;> exact nofun
    · exact exponentPart?_ne_natural

theorem afterLongWhole_ne_natural : afterLongWhole minus n s ≠ .ok (.natural k, r) := by
  unfold afterLongWhole
  dsimp only
  split
  · exact fractionPart_ne_natural
  · exact exponentPart?_ne_natural

/-- Nothing goes on with the digits of a natural number, and no minus sign stands before them. -/
theorem of_afterWhole_natural (h : afterWhole minus n s = .ok (.natural k, r)) :
    minus = false ∧ k = UInt64.ofNat n ∧ r = s ∧ ∀ c ∈ s.head?, c ≠ '.' ∧ c ≠ 'e' ∧ c ≠ 'E' := by
  unfold afterWhole at h
  split at h
  · exact absurd h fractionPart_ne_natural
  · exact absurd h exponentPart_ne_natural
  · exact absurd h exponentPart_ne_natural
  · next hdot he hE =>
    split at h
    · next hminus =>
      obtain ⟨hk, rfl⟩ := Prod.mk.inj (Except.ok.inj h)
      refine ⟨by simpa using hminus, (Number.natural.inj hk).symm, rfl, fun c hc => ?_⟩
      cases s with
      | nil => cases hc
      | cons d s =>
        obtain rfl := Option.some.inj hc
        refine ⟨?_, ?_, ?_⟩ <;> rintro rfl
        · exact hdot s rfl
        · exact he s rfl
        · exact hE s rfl
    · split at h
      · cases h
      · exact absurd h floatOf_ne_natural

end

/-- The digits that are taken spell a number of 64 bits behind those already taken. -/
theorem exists_takeDigits (s : Text) {n : Nat} (hn : n ≤ Text.maxWord) :
    ∃ ds, s = ds ++ (takeDigits n s).2.2 ∧ (∀ c ∈ ds, c.isDigit = true) ∧
      Nat.ofDigitChars 10 ds n = (takeDigits n s).1 ∧ (takeDigits n s).1 ≤ Text.maxWord := by
  induction s generalizing n with
  | nil => exact ⟨[], rfl, List.forall_mem_nil _, rfl, hn⟩
  | cons c s ih =>
    rw [takeDigits]
    split
    · next hc =>
      rw [Bool.and_eq_true, decide_eq_true_eq] at hc
      obtain ⟨ds, hs, hd, hm, hle⟩ := ih hc.2
      exact ⟨c :: ds, congrArg (c :: ·) hs, List.forall_mem_cons.mpr ⟨hc.1, hd⟩, hm, hle⟩
    · exact ⟨[], rfl, List.forall_mem_nil _, rfl, hn⟩

/-- A number is natural exactly if it is written as one, without a sign in front. -/
theorem number_eq_natural_iff {minus : Bool} {s r : Text} {n : UInt64} :
    number minus s = .ok (.natural n, r) ↔
      minus = false ∧ s = Text.ofNat n.toNat ++ r ∧ EndsNumber r := by
  constructor
  · intro h
    have hend {t : Text} (ht : startsWithDigit t = false)
        (hm : ∀ c ∈ t.head?, c ≠ '.' ∧ c ≠ 'e' ∧ c ≠ 'E') : EndsNumber t := by
      intro c hc
      cases t with
      | nil => cases hc
      | cons d t =>
        obtain rfl := Option.some.inj hc
        exact ⟨ht, hm d rfl⟩
    unfold number at h
    split at h
    · cases h
    · next t =>
      split at h
      · cases h
      · next ht =>
        obtain ⟨hminus, rfl, rfl, hm⟩ := of_afterWhole_natural h
        exact ⟨hminus, rfl, hend (Bool.eq_false_iff.mpr ht) hm⟩
    · next c t hzero =>
      split at h
      · cases h
      · next hc =>
        have hdigit : c.isDigit = true := by simpa using hc
        have hsmall : digitValue c ≤ Text.maxWord := by
          have hrange := Text.toNat_of_isDigit hdigit
          rw [digitValue, Text.maxWord]
          omega
        obtain ⟨ds, hs, hd, hm, hle⟩ := exists_takeDigits t hsmall
        dsimp only at h
        split at h
        · exact absurd h afterLongWhole_ne_natural
        · next hu =>
          obtain ⟨hminus, rfl, rfl, hafter⟩ := of_afterWhole_natural h
          have hspell : Nat.ofDigitChars 10 ds (digitValue c) =
              Nat.ofDigitChars 10 (c :: ds) 0 := by
            rw [Nat.ofDigitChars_cons, Nat.mul_zero, Nat.zero_add, digitValue]
          have hne : c ≠ '0' := by
            rintro rfl
            exact hzero rfl
          refine ⟨hminus, ?_, hend (Bool.eq_false_iff.mpr hu) hafter⟩
          rw [UInt64.toNat_ofNat_of_lt' (Nat.lt_succ_of_le hle), ← hm, hspell,
            Text.ofNat_ofDigitChars_cons (List.forall_mem_cons.mpr ⟨hdigit, hd⟩) hne,
            List.cons_append, ← hs]
  · rintro ⟨rfl, rfl, hr⟩
    exact number_ofNat n hr

theorem scalar_eq_natural_iff {s r : Text} {n : UInt64} :
    scalar s = .ok (.number (.natural n), r) ↔ s = Text.ofNat n.toNat ++ r ∧ EndsNumber r := by
  have hnumber {minus : Bool} {t u : Text} {m : Number} (hm : number minus t = .ok (m, u))
      (he : (Value.number m, u) = (Value.number (.natural n), r)) :
      minus = false ∧ t = Text.ofNat n.toNat ++ r ∧ EndsNumber r := by
    cases he
    exact number_eq_natural_iff.mp hm
  constructor
  · intro h
    unfold scalar at h
    split at h
    case h_1 => cases h
    case h_5 =>
      obtain ⟨_, hm, he⟩ := map_eq_ok_iff.mp h
      cases (hnumber hm he).1
    case h_7 =>
      split at h
      · obtain ⟨_, hm, he⟩ := map_eq_ok_iff.mp h
        exact (hnumber hm he).2
      · cases h
    all_goals
      obtain ⟨_, -, he⟩ := map_eq_ok_iff.mp h
      cases he
  · rintro ⟨rfl, hr⟩
    obtain ⟨c, ds, he⟩ := List.exists_cons_of_ne_nil (Text.ofNat_ne_nil n.toNat)
    have hc : c.isDigit = true := Text.isDigit_of_mem_ofNat (he ▸ List.mem_cons_self ..)
    have hn := number_ofNat n hr
    rw [he, List.cons_append] at hn ⊢
    rw [scalar_eq_number hc, hn]
    rfl

theorem skipSpace_skipSpace (s : Text) : skipSpace (skipSpace s) = skipSpace s :=
  List.dropWhile_idempotent ..

/-- A value is a natural number exactly if it is written as one behind white space: in digits alone,
with no zero in front and nothing that goes on with them. -/
theorem value_eq_natural_iff {levels : Nat} {s r : Text} {n : UInt64} :
    value levels s = .ok (.number (.natural n), r) ↔
      skipSpace s = Text.ofNat n.toNat ++ r ∧ EndsNumber r := by
  constructor
  · intro h
    apply scalar_eq_natural_iff.mp
    cases levels with
    | zero =>
      rw [value] at h
      split at h
      · cases h
      · cases h
      · exact h
    | succ levels =>
      rw [value] at h
      split at h
      case h_3 => exact h
      all_goals
        obtain ⟨_, -, he⟩ := map_eq_ok_iff.mp h
        cases he
  · rintro ⟨hs, hr⟩
    have hvalue : value levels s = value levels (skipSpace s) := by
      cases levels <;> rw [value, value, skipSpace_skipSpace]
    rw [hvalue, hs]
    exact (Value.Fits.natural n).value_compact r hr

end JobSearch.Json

namespace JobSearch

/-- The rational number that a floating-point number is. -/
def Binary64.toRat (x : Binary64) : ℚ :=
  (if x.negative then -1 else 1) * x.significand * 2 ^ x.exponent

/-- The rational number that a number of JSON is. -/
def Json.Number.toRat : Json.Number → ℚ
  | .natural n => n.toNat
  | .negative n => -n
  | .float x => x.toRat

theorem Binary64.isZero_iff (x : Binary64) : x.isZero = true ↔ x.toRat = 0 := by
  have hsign : (if x.negative then -1 else 1 : ℚ) ≠ 0 := by split <;> norm_num
  have hpower : (2 : ℚ) ^ x.exponent ≠ 0 := zpow_ne_zero _ (by norm_num)
  rw [isZero, beq_iff_eq, toRat, mul_eq_zero, mul_eq_zero, Nat.cast_eq_zero]
  constructor
  · exact fun h => Or.inl (Or.inr h)
  · rintro ((h | h) | h)
    · exact absurd h hsign
    · exact h
    · exact absurd h hpower

end JobSearch
