import JobSearch.Part.Token

/-!
# Queries

A query is written as the tokens of its parts with one space between neighbours. It is read back
word by word and put into canonical order, so the order and the grouping of its words never matter.
-/

namespace JobSearch

/-- The sites that are searched when a query names none of them, in the order they are written. -/
def hrSites : List Text :=
  ["greenhouse.io".toList, "breezy.hr".toList, "lever.co".toList, "apply.workable.com".toList,
    "bamboohr.com".toList, "jobs.lever.co".toList]

/-- The group of all default sites as one token. -/
def defaultSiteGroup : Text :=
  "( ".toList ++
    List.intercalate " OR ".toList (hrSites.map fun s => PartKind.site.name ++ ':' :: s) ++
    " )".toList

/-- A token mentions one of the default sites, perhaps inside a longer name. -/
def mentionsHrSite (token : Text) : Bool := hrSites.any fun s => token.contains s

namespace Query

/-- Writes parts as a query. The first part that cannot be written refuses the whole query; the
default sites are added when no token mentions one. -/
def build (cal : Calendar) (ps : List Part) : Except QueryError Text :=
  match ps.mapM (Part.token cal) with
  | .error e => .error e
  | .ok tokens =>
    let tokens := if tokens.any mentionsHrSite then tokens else tokens ++ [defaultSiteGroup]
    .ok (Text.unwords (tokens.map Text.trim))

/-- Reads a query into parts in canonical order; the first word that is no token is refused. -/
def parse (query : Text) : Except QueryError (List Part) :=
  match query.words.mapM Part.ofToken with
  | .error e => .error e
  | .ok parts => .ok (Part.canonical (parts.filterMap id))

end Query

end JobSearch
