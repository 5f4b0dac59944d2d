import JobSearch.Error
import JobSearch.Url.Reader

/-!
# Links to search results

A query is sent to a search endpoint as the query component of its URL; whatever query the endpoint
had is replaced.
-/

namespace JobSearch

/-- The search endpoint unless another one is configured. -/
def defaultSearchUrl : Text := "https://www.google.com/search".toList

/-- The query component that carries a query. -/
def Query.component (query : Text) : Text := "q=".toList ++ Percent.encodeTerm query

/-- The URL that searches an endpoint for a query. -/
def Query.link (idna : Url.Idna) (endpoint query : Text) : Except QueryError Url :=
  match Url.parse idna endpoint with
  | .error e => .error (.url e)
  | .ok u => .ok (u.withQuery (Query.component query))

end JobSearch
