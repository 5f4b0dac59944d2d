import JobSearch.Query.Fingerprint
import JobSearch.Proofs.Part.Json
import JobSearch.Proofs.Query.Canonical

/-!
# What a fingerprint tells

A fingerprint hashes the bytes of the compact JSON of the canonical parts. These bytes determine the
parts, so only the hash can give different parts one fingerprint.
-/

namespace JobSearch

namespace Part

/-- The bytes that are hashed for a list of parts. -/
def hashed (ps : List Part) : List UInt8 := (listJson ps).compact.utf8

theorem hashed_inj {ps qs : List Part} (h : hashed ps = hashed qs) : ps = qs :=
  compact_listJson_inj (Text.utf8_inj h)

end Part

namespace Query

theorem fingerprint_of_parse {q : Text} {ps : List Part} (h : parse q = .ok ps) :
    fingerprint q = .ok (fingerprintNamespace.ofName (Part.hashed ps)) := by
  rw [fingerprint, h]
  rfl

theorem fingerprint_eq_error_iff {q : Text} {e : QueryError} :
    fingerprint q = .error e ↔ parse q = .error e :=
  map_eq_error_iff

/-- The compact JSON text of a list of parts determines the list, whatever texts and bounds it
holds. Two queries that are accepted thus share a fingerprint exactly when they have the same
canonical parts, unless the hash confuses the bytes of their two lists. A query has no fingerprint
exactly when it is refused, and the error is the same. -/
theorem fingerprint_eq_iff_parse_eq :
    (Function.Injective fun ps : List Part => (Part.listJson ps).compact) ∧
    (∀ (q₁ q₂ : Text) (ps₁ ps₂ : List Part), parse q₁ = .ok ps₁ → parse q₂ = .ok ps₂ →
      (fingerprintNamespace.ofName (Part.hashed ps₁) =
        fingerprintNamespace.ofName (Part.hashed ps₂) → Part.hashed ps₁ = Part.hashed ps₂) →
      (fingerprint q₁ = fingerprint q₂ ↔ parse q₁ = parse q₂)) ∧
    ∀ (q : Text) (e : QueryError), fingerprint q = .error e ↔ parse q = .error e := by
  refine ⟨fun ps qs h => Part.compact_listJson_inj h, fun q₁ q₂ ps₁ ps₂ h₁ h₂ hash => ?_,
    fun q e => fingerprint_eq_error_iff⟩
  rw [fingerprint_of_parse h₁, fingerprint_of_parse h₂, h₁, h₂, Except.ok.injEq, Except.ok.injEq]
  exact ⟨fun h => Part.hashed_inj (hash h), fun h => by rw [h]⟩

/-- Equal values of a site and of a date bound keep the order in which they are written. -/
theorem fingerprint_eq_iff_parse_eq_site_after :
    let q₁ : Text := "site:x after:x".toList
    let q₂ : Text := "after:x site:x".toList
    let ps₁ : List Part := [.site "x".toList, .after "x".toList]
    let ps₂ : List Part := [.after "x".toList, .site "x".toList]
    (parse q₁ = .ok ps₁ ∧ parse q₂ = .ok ps₂) ∧
      (fingerprintNamespace.ofName (Part.hashed ps₁) =
        fingerprintNamespace.ofName (Part.hashed ps₂) → Part.hashed ps₁ = Part.hashed ps₂) ∧
      (fingerprint q₁ = fingerprint q₂ ↔ parse q₁ = parse q₂) ∧
      fingerprint q₁ ≠ fingerprint q₂ := by
  intro q₁ q₂ ps₁ ps₂
  have h₁ : parse q₁ = .ok ps₁ := parse_eq_ok_iff.mpr
    ⟨ps₁, rfl, (Part.canonical_eq_of_forall_mem (by decide +kernel) (by decide +kernel)).symm⟩
  have h₂ : parse q₂ = .ok ps₂ := parse_eq_ok_iff.mpr
    ⟨ps₂, rfl, (Part.canonical_eq_of_forall_mem (by decide +kernel) (by decide +kernel)).symm⟩
  have hne : fingerprintNamespace.ofName (Part.hashed ps₁) ≠
      fingerprintNamespace.ofName (Part.hashed ps₂) := by decide +kernel
  have hash : fingerprintNamespace.ofName (Part.hashed ps₁) =
      fingerprintNamespace.ofName (Part.hashed ps₂) → Part.hashed ps₁ = Part.hashed ps₂ :=
    fun h => absurd h hne
  have hiff := fingerprint_eq_iff_parse_eq.2.1 q₁ q₂ ps₁ ps₂ h₁ h₂ hash
  refine ⟨⟨h₁, h₂⟩, hash, hiff, ?_⟩
  rw [Ne, hiff, h₁, h₂]
  decide

end Query

end JobSearch
