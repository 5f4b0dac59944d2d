import JobSearch.Proofs.Query.Fingerprint

/-!
# Queries that are written one behind the other

A query that is joined to another is read with it: the two lists of parts are joined and sorted
again, and the first of two errors is kept. Sorting forgets nothing that sorting again would need,
so queries that are read alike are still read alike, and keep one fingerprint, when the same text is
put in front of both or behind both.
-/

namespace JobSearch.Query

open JobSearch.Part

/-- Two queries with a space between them are read one after the other and sorted together. -/
theorem parse_append_cons (q t : Text) :
    parse (q ++ ' ' :: t) =
      parse q >>= fun ps => (parse t).map fun ts => canonical (ps ++ ts) := by
  simp only [parse_eq_map, Text.words_append_cons (rfl : Text.isBlank ' ' = true),
    List.mapM_append]
  cases q.words.mapM ofToken with
  | error e => rfl
  | ok os =>
    cases t.words.mapM ofToken with
    | error e => rfl
    | ok us =>
      refine congrArg Except.ok ?_
      simp only [canonical_append_canonical, canonical_canonical_append, List.filterMap_append]

/-- The joined query is refused for the text that is joined to an accepted one, on either side. -/
theorem parse_join_of_error {q t : Text} {ps : List Part} {e : QueryError} (h : parse q = .ok ps)
    (ht : parse t = .error e) :
    parse (q ++ ' ' :: t) = .error e ∧ parse (t ++ ' ' :: q) = .error e := by
  rw [parse_append_cons, parse_append_cons, h, ht]
  exact ⟨rfl, rfl⟩

theorem parse_join_of_ok {q t : Text} {ps ts : List Part} (h : parse q = .ok ps)
    (ht : parse t = .ok ts) :
    parse (q ++ ' ' :: t) = .ok (canonical (ps ++ ts)) ∧
      parse (t ++ ' ' :: q) = .ok (canonical (ts ++ ps)) := by
  rw [parse_append_cons, parse_append_cons, h, ht]
  exact ⟨rfl, rfl⟩

/-- Queries that are read alike are still read alike with the same text joined to them. -/
theorem parse_join_congr {q₁ q₂ : Text} (h : parse q₁ = parse q₂) (t : Text) :
    parse (q₁ ++ ' ' :: t) = parse (q₂ ++ ' ' :: t) ∧
      parse (t ++ ' ' :: q₁) = parse (t ++ ' ' :: q₂) := by
  simp only [parse_append_cons, h, and_self]

/-- Queries that are read alike keep a common fingerprint with the same text joined to them. -/
theorem fingerprint_join_congr {q₁ q₂ : Text} (h : parse q₁ = parse q₂) (t : Text) :
    fingerprint (q₁ ++ ' ' :: t) = fingerprint (q₂ ++ ' ' :: t) ∧
      fingerprint (t ++ ' ' :: q₁) = fingerprint (t ++ ' ' :: q₂) := by
  obtain ⟨hbehind, hfront⟩ := parse_join_congr h t
  simp only [fingerprint, hbehind, hfront, and_self]

/-- Queries that are read alike cannot be told apart by a text that is put behind them or in front
of them: they are refused for the same reason, or their parts and those of the text are joined in
order and sorted, and the fingerprints agree. So queries with one fingerprint keep a common one,
unless the hash confuses the bytes of their two lists of parts. -/
theorem parse_joined_alike (t : Text) :
    (∀ (q₁ q₂ : Text) (ps : List Part), parse q₁ = .ok ps → parse q₂ = .ok ps →
      (parse (q₁ ++ ' ' :: t) = parse (q₂ ++ ' ' :: t) ∧
        parse (t ++ ' ' :: q₁) = parse (t ++ ' ' :: q₂)) ∧
      (fingerprint (q₁ ++ ' ' :: t) = fingerprint (q₂ ++ ' ' :: t) ∧
        fingerprint (t ++ ' ' :: q₁) = fingerprint (t ++ ' ' :: q₂)) ∧
      (∀ ts, parse t = .ok ts → parse (q₁ ++ ' ' :: t) = .ok (canonical (ps ++ ts)) ∧
        parse (t ++ ' ' :: q₁) = .ok (canonical (ts ++ ps))) ∧
      (∀ e, parse t = .error e →
        parse (q₁ ++ ' ' :: t) = .error e ∧ parse (t ++ ' ' :: q₁) = .error e)) ∧
    ∀ (q₁ q₂ : Text) (ps₁ ps₂ : List Part), parse q₁ = .ok ps₁ → parse q₂ = .ok ps₂ →
      (fingerprintNamespace.ofName (hashed ps₁) = fingerprintNamespace.ofName (hashed ps₂) →
        hashed ps₁ = hashed ps₂) →
      fingerprint q₁ = fingerprint q₂ →
        fingerprint (q₁ ++ ' ' :: t) = fingerprint (q₂ ++ ' ' :: t) ∧
          fingerprint (t ++ ' ' :: q₁) = fingerprint (t ++ ' ' :: q₂) := by
  refine ⟨fun q₁ q₂ ps h₁ h₂ => ?_, fun q₁ q₂ ps₁ ps₂ h₁ h₂ hash hid => ?_⟩
  · have halike : parse q₁ = parse q₂ := h₁.trans h₂.symm
    exact ⟨parse_join_congr halike t, fingerprint_join_congr halike t,
      fun ts ht => parse_join_of_ok h₁ ht, fun e ht => parse_join_of_error h₁ ht⟩
  · rw [fingerprint_of_parse h₁, fingerprint_of_parse h₂, Except.ok.injEq] at hid
    obtain rfl := hashed_inj (hash hid)
    exact fingerprint_join_congr (h₁.trans h₂.symm) t

/-- The two queries differ in order and grouping, and what is joined to them sorts among their
parts. -/
theorem parse_joined_alike_site :
    let q₁ : Text := "site:x.io rust".toList
    let q₂ : Text := "( rust OR site:x.io )".toList
    let t : Text := "go after:2020-01-01".toList
    let ps : List Part := [.text "rust".toList, .site "x.io".toList]
    let ts : List Part := [.text "go".toList, .after "2020-01-01".toList]
    (parse q₁ = .ok ps ∧ parse q₂ = .ok ps ∧ parse t = .ok ts) ∧
      parse (q₁ ++ ' ' :: t) = parse (q₂ ++ ' ' :: t) ∧
      parse (t ++ ' ' :: q₁) = .ok [.text "go".toList, .text "rust".toList,
        .after "2020-01-01".toList, .site "x.io".toList] ∧
      fingerprint (q₁ ++ ' ' :: t) = fingerprint (q₂ ++ ' ' :: t) := by
  intro q₁ q₂ t ps ts
  have h₁ : parse q₁ = .ok ps := parse_of_reads_of_ordered
    [.site "x.io".toList, .text "rust".toList] rfl (by decide +kernel) (by decide +kernel)
  have h₂ : parse q₂ = .ok ps :=
    parse_of_reads_of_ordered ps rfl (by decide +kernel) (by decide +kernel)
  have ht : parse t = .ok ts :=
    parse_of_reads_of_ordered ts rfl (by decide +kernel) (by decide +kernel)
  obtain ⟨⟨halike, -⟩, -, hjoined, -⟩ := (parse_joined_alike t).1 q₁ q₂ ps h₁ h₂
  have hid : fingerprint q₁ = fingerprint q₂ := by
    rw [fingerprint_of_parse h₁, fingerprint_of_parse h₂]
  obtain ⟨hkept, -⟩ := (parse_joined_alike t).2 q₁ q₂ ps ps h₁ h₂ (fun _ => rfl) hid
  refine ⟨⟨h₁, h₂, ht⟩, halike, (hjoined ts ht).2.trans (congrArg Except.ok ?_), hkept⟩
  exact canonical_eq_of_forall_mem (by decide +kernel) (by decide +kernel)

end JobSearch.Query
