import JobSearch.Calendar.Iso
import JobSearch.Proofs.Text.Number

/-!
# Written dates are read back

A date is written with a year of at least four digits, which has a sign if there are more or if it
lies before year 0. Reading takes the digits back number by number, up to the hyphens between them.
-/

namespace JobSearch

/-- A number is taken up to a character that is no digit. -/
theorem leadingNumber?_append {ds r : Text} {limit n : Nat} (hn : Text.toNat? ds = some n)
    (hlen : ds.length ≤ limit) (hr : ∀ c ∈ r.head?, c.isDigit = false) :
    leadingNumber? limit (ds ++ r) = some (n, r) := by
  have hd : ∀ c ∈ ds, c.isDigit = true := fun c => Text.isDigit_of_toNat? hn
  have hrest : (r.take (limit - ds.length)).takeWhile Char.isDigit = [] := by
    cases r with
    | nil => simp
    | cons c r =>
      cases limit - ds.length with
      | zero => rfl
      | succ k => rw [List.take_succ_cons, List.takeWhile_cons, hr c rfl]; rfl
  have hdigits : ((ds ++ r).take limit).takeWhile Char.isDigit = ds := by
    rw [List.take_append, List.take_of_length_le hlen, List.takeWhile_append_of_pos hd, hrest,
      List.append_nil]
  simp only [leadingNumber?, hdigits, hn, Option.map_some, List.drop_left]

/-- Two digits are taken as the number that they were written for. -/
theorem leadingNumber?_twoDigits {n : Nat} (hn : n < 100) {r : Text}
    (hr : ∀ c ∈ r.head?, c.isDigit = false) :
    leadingNumber? 2 (twoDigits n ++ r) = some (n, r) :=
  leadingNumber?_append (Text.toNat?_padZero 2 n)
    (Nat.le_of_eq (Text.length_padZero_ofNat (by decide) hn)) hr

theorem exists_padZero_ofNat_eq_cons (width n : Nat) :
    ∃ c u, Text.padZero width (Text.ofNat n) = c :: u ∧ c.isDigit = true := by
  have hne : Text.padZero width (Text.ofNat n) ≠ [] := by
    intro h
    exact Text.ofNat_ne_nil n (List.append_eq_nil_iff.mp h).2
  obtain ⟨c, u, hcu⟩ := List.exists_cons_of_ne_nil hne
  exact ⟨c, u, hcu, Text.isDigit_of_mem_padZero (hcu ▸ List.mem_cons_self ..)⟩

theorem trimStart_cons {c : Char} (hc : Text.isBlank c = false) (r : Text) :
    Text.trimStart (c :: r) = c :: r :=
  List.dropWhile_cons_of_neg (by rw [hc]; exact Bool.false_ne_true)

/-- A year is taken with its sign. -/
theorem leadingYear?_signedYear (year : Int) {r : Text} (hr : ∀ c ∈ r.head?, c.isDigit = false) :
    leadingYear? (signedYear year ++ r) = some (year, r) := by
  have hn := Text.toNat?_padZero 4 year.natAbs
  have hsigned : leadingNumber? (Text.padZero 4 (Text.ofNat year.natAbs) ++ r).length
      (Text.padZero 4 (Text.ofNat year.natAbs) ++ r) = some (year.natAbs, r) := by
    apply leadingNumber?_append hn _ hr
    rw [List.length_append]
    exact Nat.le_add_right _ _
  unfold signedYear
  dsimp only
  split
  · next h =>
    rw [List.cons_append, leadingYear?, hsigned, Option.map_some]
    have hv : -(year.natAbs : Int) = year := by omega
    simp only [hv]
  · split
    · next h =>
      rw [List.cons_append, leadingYear?, hsigned, Option.map_some]
      have hv : (year.natAbs : Int) = year := by omega
      simp only [hv]
    · next hneg hbig =>
      -- The first character is a digit, so the year is read as one without a sign.
      have hv : (year.natAbs : Int) = year := by omega
      have hpow : Nat.pow 10 4 = 10000 := rfl
      have hlen : (Text.padZero 4 (Text.ofNat year.natAbs)).length = 4 :=
        Text.length_padZero_ofNat (by decide) (by omega)
      have hnumber := leadingNumber?_append hn (Nat.le_of_eq hlen) hr
      obtain ⟨c, u, hcu, hc⟩ := exists_padZero_ofNat_eq_cons 4 year.natAbs
      rw [hcu] at hnumber ⊢
      rw [List.cons_append] at hnumber ⊢
      unfold leadingYear?
      split
      · next heq =>
        rw [(List.cons.inj heq).1] at hc
        cases hc
      · next heq =>
        rw [(List.cons.inj heq).1] at hc
        cases hc
      · rw [hnumber, Option.map_some]
        simp only [hv]

/-- Behind a hyphen the next number starts. -/
theorem afterHyphen?_twoDigits (n : Nat) (r : Text) :
    afterHyphen? ('-' :: (twoDigits n ++ r)) = some (twoDigits n ++ r) := by
  obtain ⟨c, u, hcu, hc⟩ := exists_padZero_ofNat_eq_cons 2 n
  have hdigits : twoDigits n = c :: u := hcu
  have hhyphen : Text.trimStart ('-' :: (c :: (u ++ r))) = '-' :: c :: (u ++ r) :=
    trimStart_cons rfl _
  rw [hdigits, List.cons_append, afterHyphen?, hhyphen]
  simp only [trimStart_cons (Text.not_isBlank_of_isDigit hc)]

theorem daysInMonth_le (year : Int) (month : Nat) : daysInMonth year month ≤ 31 := by
  unfold daysInMonth
  split
  · split <;> decide
  all_goals decide

theorem trimStart_signedYear (year : Int) (r : Text) :
    Text.trimStart (signedYear year ++ r) = signedYear year ++ r := by
  obtain ⟨c, u, hcu, hc⟩ := exists_padZero_ofNat_eq_cons 4 year.natAbs
  unfold signedYear
  dsimp only
  split
  · exact trimStart_cons rfl _
  · split
    · exact trimStart_cons rfl _
    · rw [hcu]
      exact trimStart_cons (Text.not_isBlank_of_isDigit hc) _

/-- Every date is read back. -/
theorem Date.ofIso?_iso (d : Date) : ofIso? d.iso = some d := by
  obtain ⟨-, hmonth, hday⟩ := d.isDay
  have hdays := daysInMonth_le d.year d.month
  have hiso : d.iso = signedYear d.year ++
      '-' :: (twoDigits d.month ++ '-' :: (twoDigits d.day ++ [])) := by
    simp [iso]
  have hhyphen (r : Text) : ∀ c ∈ ('-' :: r).head?, c.isDigit = false := by
    intro c hc
    obtain rfl : '-' = c := Option.some.inj hc
    rfl
  have hyear := leadingYear?_signedYear d.year (hhyphen (twoDigits d.month ++
    '-' :: (twoDigits d.day ++ [])))
  have hm := leadingNumber?_twoDigits (n := d.month) (by omega) (hhyphen (twoDigits d.day ++ []))
  have hd := leadingNumber?_twoDigits (n := d.day) (r := []) (by omega) nofun
  rw [ofIso?, hiso, trimStart_signedYear]
  simp only [hyear, afterHyphen?_twoDigits, hm, hd, Option.bind_eq_bind, Option.bind_some,
    ofYMD?_self]
  rfl

/-- A written date consists of digits, hyphens and signs. -/
theorem Date.mem_iso {d : Date} {c : Char} (hc : c ∈ d.iso) :
    c.isDigit = true ∨ c = '-' ∨ c = '+' := by
  have hyear : ∀ c ∈ signedYear d.year, c.isDigit = true ∨ c = '-' ∨ c = '+' := by
    intro c hc
    unfold signedYear at hc
    dsimp only at hc
    split at hc
    · exact (List.mem_cons.mp hc).elim (fun h => Or.inr (Or.inl h))
        fun h => Or.inl (Text.isDigit_of_mem_padZero h)
    · split at hc
      · exact (List.mem_cons.mp hc).elim (fun h => Or.inr (Or.inr h))
          fun h => Or.inl (Text.isDigit_of_mem_padZero h)
      · exact Or.inl (Text.isDigit_of_mem_padZero hc)
  simp only [iso, List.mem_append, List.mem_cons] at hc
  obtain (hc | rfl | hc) | rfl | hc := hc
  · exact hyear c hc
  · exact Or.inr (Or.inl rfl)
  · exact Or.inl (Text.isDigit_of_mem_padZero hc)
  · exact Or.inr (Or.inl rfl)
  · exact Or.inl (Text.isDigit_of_mem_padZero hc)

end JobSearch
