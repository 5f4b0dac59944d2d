import JobSearch.Digest.Uuid
import JobSearch.Part.Json
import JobSearch.Query

/-!
# Fingerprints of queries

The fingerprint of a query is derived from the compact JSON of its parts in canonical order, so
queries with the same canonical parts share it, however their words are ordered or grouped.
-/

namespace JobSearch

/-- The namespace of fingerprints under the present canonical order. -/
def fingerprintNamespace : Uuid := Uuid.ofNat 0x1a3cbda57c19408dac049d0559a6cc28

/-- The fingerprint of a list of parts in canonical order. -/
def Part.fingerprint (ps : List Part) : Uuid :=
  fingerprintNamespace.ofName (Text.utf8 (Part.listJson ps).compact)

/-- The fingerprint of a query. -/
def Query.fingerprint (query : Text) : Except QueryError Uuid :=
  (Query.parse query).map Part.fingerprint

end JobSearch
