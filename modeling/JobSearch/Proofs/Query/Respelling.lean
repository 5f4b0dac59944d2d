import JobSearch.Proofs.Part.Grammar
import JobSearch.Proofs.Query.Rebuild

/-!
# Words and parts, there and back

A part comes back from its word unless something in it looks like something else, or it names a
month relative to today, of which only the date comes back. A word comes back from its part as it
is, but for a salary range, whose bounds are respelled without plus signs and without zeros in
front; only the writer minds an operator without a value and bounds that nobody can search for.
-/

namespace JobSearch

namespace SalaryRange

/-- A side of a range without a plus sign and without zeros in front. -/
def respelled : Text → Text
  | '+' :: digits => Text.withoutZeros digits
  | digits => Text.withoutZeros digits

/-- The text of a bound is any spelling of it, respelled. -/
theorem boundText_of_spellsBound {side : Text} {bound : Option UInt64}
    (h : SpellsBound side bound) : boundText bound = respelled side := by
  cases bound with
  | none =>
    obtain rfl : side = [] := h
    rfl
  | some n =>
    obtain ⟨digits, hside, hne, hd, hn⟩ := h
    have htext : boundText (some n) = digits.withoutZeros := by
      rw [boundText, ← hn, Text.ofNat_ofDigitChars_zero hne hd]
    rw [htext]
    rcases hside with rfl | rfl
    · unfold respelled
      split
      · exact absurd (hd '+' (List.mem_cons_self ..)) (by decide)
      · rfl
    · rfl

/-- A range that was read from a word is written as its two sides, respelled. -/
theorem token_of_ofToken {w s : Text} {r : SalaryRange} (h : ofToken w = .ok r)
    (hs : r.token = .ok s) :
    ∃ low high, w = low ++ rangeDots ++ high ∧ '.' ∉ low ∧ '.' ∉ high ∧
      s = respelled low ++ rangeDots ++ respelled high := by
  obtain ⟨low, high, hw, hl, hh⟩ := ofToken_eq_ok_iff.mp h
  obtain ⟨-, rfl⟩ := token_eq_ok_iff.mp hs
  refine ⟨low, high, hw, hl.dot_not_mem, hh.dot_not_mem, ?_⟩
  rw [boundText_of_spellsBound hl, boundText_of_spellsBound hh]

end SalaryRange

namespace Part

/-- The part comes back from its word: a text that looks like nothing else, an operator whose value
has no two dots, or any salary range. -/
def ComesBack : Part → Prop
  | .text t => t ∉ structuralTokens ∧ ':' ∉ t ∧ ¬ rangeDots <:+: t
  | .site v => ¬ rangeDots <:+: v
  | .after v => ¬ rangeDots <:+: v
  | .before v => ¬ rangeDots <:+: v
  | .salary _ => True
  | .lastMonth _ => False

theorem comesBack_iff_of_operatorValue? {p : Part} {v : Text} (h : p.operatorValue? = some v) :
    p.ComesBack ↔ ¬ rangeDots <:+: v := by
  cases p <;> cases h <;> rfl

section Written

variable {cal : Calendar} {p : Part} {s : Text}

theorem token_text_eq_ok_iff {t : Text} :
    token cal (.text t) = .ok s ↔ t.isAllBlank = false ∧ s = t := by
  rw [token]
  split
  · next hb => simp [hb]
  · next hb => simp [hb, eq_comm]

theorem token_lastMonth_eq_ok {m : Option Text} (h : token cal (.lastMonth m) = .ok s) :
    ∃ month, s = PartKind.after.name ++ ':' :: operatorDate month := by
  obtain ⟨month, -, hs⟩ := map_eq_ok_iff.mp h
  exact ⟨month, hs.symm⟩

/-- A month relative to today comes back as the bound that it was written as. -/
theorem ofToken_of_lastMonth {m : Option Text} (h : token cal (.lastMonth m) = .ok s) :
    ∃ v, s = PartKind.after.name ++ ':' :: v ∧ ofToken s = .ok (some (.after v)) := by
  obtain ⟨month, rfl⟩ := token_lastMonth_eq_ok h
  exact ⟨_, rfl, ofToken_of_operator (p := .after (operatorDate month)) rfl
    (not_dots_isInfix_operatorDate month)⟩

/-- A salary range comes back whatever its bounds are. -/
theorem ofToken_of_salary {r : SalaryRange} (h : token cal (.salary r) = .ok s) :
    ofToken s = .ok (some (.salary r)) := by
  obtain ⟨-, he⟩ := SalaryRange.token_eq_ok_iff.mp h
  have hd : rangeDots <:+: s := by
    rw [he]
    exact List.infix_append ..
  rw [ofToken_of_dots hd, SalaryRange.ofToken_token h]
  rfl

/-- An operator comes back exactly if its value has no two dots. -/
theorem ofToken_of_operatorValue? {v : Text} (hv : p.operatorValue? = some v)
    (h : p.token cal = .ok s) : ofToken s = .ok (some p) ↔ ¬ rangeDots <:+: v := by
  rw [token_of_operatorValue? cal hv, operatorToken_eq_ok_iff] at h
  obtain ⟨-, rfl⟩ := h
  exact ⟨fun hs hd => ofToken_ne_ok_of_dots hd _ hs, ofToken_of_operator hv⟩

/-- A written part is read as that part exactly if it looks like nothing else. -/
theorem ofToken_token_iff (h : p.token cal = .ok s) :
    ofToken s = .ok (some p) ↔ p.ComesBack := by
  cases p with
  | text t =>
    obtain ⟨hb, rfl⟩ := token_text_eq_ok_iff.mp h
    have hne : s ≠ [] := by
      rintro rfl
      cases hb
    constructor
    · intro hs
      rcases ofToken_cases_some hs with ⟨-, hs, hd, hc⟩ | ⟨r, hr, -⟩ | ⟨v, hv, -⟩
      · exact ⟨hs, hc, hd⟩
      · cases hr
      · cases hv
    · rintro ⟨hs, hc, hd⟩
      exact ofToken_of_plain hne hs hd hc
  | site v => exact ofToken_of_operatorValue? rfl h
  | after v => exact ofToken_of_operatorValue? rfl h
  | before v => exact ofToken_of_operatorValue? rfl h
  | salary r => exact iff_of_true (ofToken_of_salary h) trivial
  | lastMonth m =>
    refine iff_of_false (fun hs => ?_) id
    obtain ⟨v, -, hv⟩ := ofToken_of_lastMonth h
    cases hs.symm.trans hv

end Written

section Spelled

variable {cal : Calendar} {w : Text} {p : Part}

/-- No word spells a month relative to today. -/
theorem ne_lastMonth_of_ofToken (h : ofToken w = .ok (some p)) (m : Option Text) :
    p ≠ .lastMonth m := by
  rintro rfl
  rcases ofToken_cases_some h with ⟨hp, -⟩ | ⟨r, hp, -⟩ | ⟨v, hv, -⟩
  · cases hp
  · cases hp
  · cases hv

theorem exists_token_eq_error_iff (cal : Calendar) (hw : Text.IsWord w)
    (h : ofToken w = .ok (some p)) : (∃ e, p.token cal = .error e) ↔ ¬ p.Filled := by
  rw [← exists_token_iff_filled cal hw h]
  cases p.token cal with
  | error e => simp
  | ok s => simp

/-- Whatever is written for a part that a word spells is read as that part again. -/
theorem ofToken_token_of_ofToken (h : ofToken w = .ok (some p)) {s : Text}
    (hs : p.token cal = .ok s) : ofToken s = .ok (some p) := by
  rw [ofToken_token_iff hs]
  rcases ofToken_cases_some h with ⟨rfl, hs, hd, hc⟩ | ⟨r, rfl, -⟩ | ⟨v, hv, -, hd⟩
  · exact ⟨hs, hc, hd⟩
  · trivial
  · exact (comesBack_iff_of_operatorValue? hv).mpr hd

/-- Anything but a salary range is written as the word that spelled it. -/
theorem token_eq_of_ofToken (h : ofToken w = .ok (some p)) (hp : ∀ r, p ≠ .salary r) {s : Text}
    (hs : p.token cal = .ok s) : s = w := by
  rcases ofToken_cases_some h with ⟨rfl, -⟩ | ⟨r, hr, -⟩ | ⟨v, hv, rfl, -⟩
  · exact (token_text_eq_ok_iff.mp hs).2
  · exact absurd hr (hp r)
  · rw [token_of_operatorValue? cal hv, operatorToken_eq_ok_iff] at hs
    exact hs.2

theorem token_salary_of_ofToken {r : SalaryRange} (h : ofToken w = .ok (some (.salary r)))
    {s : Text} (hs : token cal (.salary r) = .ok s) :
    ∃ low high, w = low ++ rangeDots ++ high ∧ '.' ∉ low ∧ '.' ∉ high ∧
      s = SalaryRange.respelled low ++ rangeDots ++ SalaryRange.respelled high := by
  rcases ofToken_cases_some h with ⟨hr, -⟩ | ⟨q, hr, -, hq⟩ | ⟨v, hv, -⟩
  · cases hr
  · cases hr
    exact SalaryRange.token_of_ofToken hq hs
  · cases hv

end Spelled

/-- Parts and words, there and back. A written part is read as that part exactly if it looks like
nothing else, and a month relative to today is read as its date. A word that spells a part spells no
such month; the part is written unless something is missing from it or its upper bound is excessive,
as the very word if it is no salary range, else as its two sides without plus signs and zeros in
front, and it is read as that part again. -/
theorem token_ofToken_laws (cal : Calendar) :
    (∀ p s, token cal p = .ok s →
      (ofToken s = .ok (some p) ↔ p.ComesBack) ∧
      ∀ m, p = .lastMonth m →
        ∃ v, s = PartKind.after.name ++ ':' :: v ∧ ofToken s = .ok (some (.after v))) ∧
    ∀ w p, Text.IsWord w → ofToken w = .ok (some p) →
      (∀ m, p ≠ .lastMonth m) ∧
      ((∃ e, token cal p = .error e) ↔ ¬ p.Filled) ∧
      ∀ s, token cal p = .ok s →
        ofToken s = .ok (some p) ∧
        ((∀ r, p ≠ .salary r) → s = w) ∧
        ∀ r, p = .salary r → ∃ low high, w = low ++ rangeDots ++ high ∧ '.' ∉ low ∧ '.' ∉ high ∧
          s = SalaryRange.respelled low ++ rangeDots ++ SalaryRange.respelled high := by
  refine ⟨fun p s h => ⟨ofToken_token_iff h, ?_⟩, fun w p hw h =>
    ⟨ne_lastMonth_of_ofToken h, exists_token_eq_error_iff cal hw h, fun s hs =>
      ⟨ofToken_token_of_ofToken h hs, fun hp => token_eq_of_ofToken h hp hs, ?_⟩⟩⟩
  · rintro m rfl
    exact ofToken_of_lastMonth h
  · rintro r rfl
    exact token_salary_of_ofToken h hs

/-- A text of two words comes back whole, a month as its date, and a range without its plus sign and
zeros; a range whose upper bound is excessive is read but not written. -/
theorem token_ofToken_laws_plus_zeros :
    let cal : Calendar := ⟨fun _ _ => none, ⟨2024, 3, 20, by decide⟩⟩
    let range : Part := .salary ⟨some 7, some 0⟩
    let excessive : Part := .salary ⟨some 7, some 900001⟩
    (token cal (.text "a b".toList) = .ok "a b".toList ∧
      ofToken "a b".toList = .ok (some (.text "a b".toList))) ∧
    (token cal (.lastMonth none) = .ok "after:2024-02-01".toList ∧
      ∃ v, "after:2024-02-01".toList = PartKind.after.name ++ ':' :: v ∧
        ofToken "after:2024-02-01".toList = .ok (some (.after v))) ∧
    (Text.IsWord "+007..000".toList ∧ ofToken "+007..000".toList = .ok (some range) ∧
      token cal range = .ok "7..0".toList ∧ ofToken "7..0".toList = .ok (some range)) ∧
    Text.IsWord "7..0900001".toList ∧ ofToken "7..0900001".toList = .ok (some excessive) ∧
      ∃ e, token cal excessive = .error e := by
  intro cal range excessive
  have htext : token cal (.text "a b".toList) = .ok "a b".toList := by decide
  have hmonth : token cal (.lastMonth none) = .ok "after:2024-02-01".toList := by decide +kernel
  have hword : Text.IsWord "+007..000".toList := by decide
  have hrange : ofToken "+007..000".toList = .ok (some range) := by decide +kernel
  have hwritten : token cal range = .ok "7..0".toList := by decide +kernel
  have hword' : Text.IsWord "7..0900001".toList := by decide
  have hexcessive : ofToken "7..0900001".toList = .ok (some excessive) := by decide +kernel
  have hceiling : ¬ excessive.Filled := fun h => absurd (h.2 900001 rfl) (by decide)
  obtain ⟨hparts, hwords⟩ := token_ofToken_laws cal
  exact ⟨⟨htext, (hparts _ _ htext).1.mpr (by unfold ComesBack; decide)⟩,
    ⟨hmonth, (hparts _ _ hmonth).2 none rfl⟩,
    ⟨hword, hrange, hwritten, ((hwords _ _ hword hrange).2.2 _ hwritten).1⟩,
    hword', hexcessive, (hwords _ _ hword' hexcessive).2.1.mpr hceiling⟩

end Part

end JobSearch
