import JobSearch.Proofs.Results
import JobSearch.Proofs.Url.Percent
import JobSearch.Query.Link

/-!
# What a link says

A link is the endpoint with another query component and nothing else changed. The component holds
the searched query, and it is read back from there byte by byte, so the links of one endpoint differ
as the queries do.
-/

namespace JobSearch

namespace Url

/-- The text of a URL is made of what stands before its query, the query and the fragment. -/
theorem toText_with_query (u : Url) (query : Text) :
    Url.toText { u with query := some query } =
      (u.scheme ++ ':' :: u.hierarchy) ++ '?' :: (query ++ u.fragment.elim [] ('#' :: ·)) := by
  have hh : Url.hierarchy { u with query := some query } = u.hierarchy := rfl
  simp only [toText, hh, Option.elim_some, List.append_assoc, List.cons_append]

/-- URLs that differ in the query have different texts. -/
theorem query_eq_of_toText_eq {u : Url} {q r : Text}
    (h : Url.toText { u with query := some q } = Url.toText { u with query := some r }) :
    q = r := by
  rw [toText_with_query, toText_with_query, List.append_cancel_left_eq, List.cons.injEq,
    List.append_cancel_right_eq] at h
  exact h.2

end Url

namespace Query

/-- The query component of a link: the name of the parameter and the term, byte by byte. -/
theorem encode_component (special : Bool) (query : Text) :
    Percent.encode (Percent.keptInQuery special) (component query) =
      "q=".toList ++ query.utf8.flatMap (Percent.termByte special) := by
  have hname : ∀ special, Percent.encode (Percent.keptInQuery special) "q=".toList =
      "q=".toList := by decide
  rw [component, Percent.encode_append, hname, Percent.encode_encodeTerm]

variable {idna : Url.Idna}

/-- A link is the endpoint with the component of the query. -/
theorem link_of_parse {endpoint : Text} {u : Url} (h : Url.parse idna endpoint = .ok u)
    (query : Text) :
    link idna endpoint query = .ok { u with
      query := some ("q=".toList ++
        query.utf8.flatMap (Percent.termByte (Url.isSpecial u.scheme))) } := by
  rw [link, h]
  simp only [Url.withQuery, encode_component]

theorem link_eq_error_iff {endpoint query : Text} {e : QueryError} :
    link idna endpoint query = .error e ↔
      ∃ f, Url.parse idna endpoint = .error f ∧ e = .url f := by
  rw [link]
  cases Url.parse idna endpoint with
  | error f => simp [eq_comm]
  | ok u => simp

/-- There is a link exactly when the endpoint is a URL, whatever the query and whatever the rules
for names. The link differs from the endpoint in the query component alone: the parameter `q` with a
value of letters, digits, a few marks, plus signs and escapes, without an apostrophe where the
scheme is special, from which the bytes of the query are read back. Two queries with one link are
therefore equal. -/
theorem link_lossless (idna : Url.Idna) (endpoint : Text) :
    (∀ (query : Text) (e : QueryError), link idna endpoint query = .error e ↔
      ∃ f, Url.parse idna endpoint = .error f ∧ e = .url f) ∧
    (∀ (query : Text) (u : Url), Url.parse idna endpoint = .ok u → ∃ term,
      link idna endpoint query = .ok { u with query := some ("q=".toList ++ term) } ∧
        Percent.IsTerm term ∧ (Url.isSpecial u.scheme = true → '\x27' ∉ term) ∧
        Percent.decodeTerm term = query.utf8) ∧
    ∀ (q r : Text) (u v : Url), link idna endpoint q = .ok u → link idna endpoint r = .ok v →
      u.toText = v.toText → q = r := by
  refine ⟨fun _ _ => link_eq_error_iff, fun query u h => ?_, fun q r u v hq hr ht => ?_⟩
  · refine ⟨_, link_of_parse h query, Percent.isTerm_flatMap_termByte _ _, fun hs => ?_,
      Percent.decodeTerm_flatMap_termByte _ _⟩
    rw [hs]
    exact Percent.apostrophe_not_mem_flatMap_termByte _
  · cases h : Url.parse idna endpoint with
    | error f =>
      rw [link, h] at hq
      cases hq
    | ok w =>
      obtain rfl := Except.ok.inj ((link_of_parse h q).symm.trans hq)
      obtain rfl := Except.ok.inj ((link_of_parse h r).symm.trans hr)
      have hterm := List.append_cancel_left (Url.query_eq_of_toText_eq ht)
      have hbytes := congrArg Percent.decodeTerm hterm
      rw [Percent.decodeTerm_flatMap_termByte, Percent.decodeTerm_flatMap_termByte] at hbytes
      exact Text.utf8_inj hbytes

/-- A percent sign before the digits of a space is escaped itself, so nothing is replaced there, and
a space and a plus sign give different links; the name of the host is put in ASCII. -/
theorem link_lossless_percent_sign :
    let idna : Url.Idna := .ofTable [("münchen.de".toList, "xn--mnchen-3ya.de".toList)]
    let endpoint : Text := "https://m%C3%BCnchen.de/p?old=1#f".toList
    let query : Text := "50%20 a+b c\x27é".toList
    let u : Url := ⟨"https".toList, some ⟨[], [], .name "xn--mnchen-3ya.de".toList, none⟩,
      .segments ["p".toList], some "old=1".toList, some "f".toList⟩
    let link₁ : Url := { u with query := some "q=a+b".toList }
    let link₂ : Url := { u with query := some "q=a%2Bb".toList }
    (Url.parse idna endpoint = .ok u ∧ ∃ term,
      link idna endpoint query = .ok { u with query := some ("q=".toList ++ term) } ∧
        Percent.IsTerm term ∧ (Url.isSpecial u.scheme = true → '\x27' ∉ term) ∧
        Percent.decodeTerm term = query.utf8) ∧
    (link idna endpoint query).map Url.toText =
      .ok "https://xn--mnchen-3ya.de/p?q=50%2520+a%2Bb+c%27%C3%A9#f".toList ∧
    link idna endpoint "a b".toList = .ok link₁ ∧ link idna endpoint "a+b".toList = .ok link₂ ∧
      link₁.toText ≠ link₂.toText := by
  intro idna endpoint query u link₁ link₂
  have h : Url.parse idna endpoint = .ok u := by decide +kernel
  have h₁ : link idna endpoint "a b".toList = .ok link₁ := by decide +kernel
  have h₂ : link idna endpoint "a+b".toList = .ok link₂ := by decide +kernel
  refine ⟨⟨h, (link_lossless idna endpoint).2.1 query u h⟩, by decide +kernel, h₁, h₂,
    fun ht => ?_⟩
  exact absurd ((link_lossless idna endpoint).2.2 _ _ _ _ h₁ h₂ ht) (by decide)

end Query

end JobSearch
