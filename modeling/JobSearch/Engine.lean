import JobSearch.Config
import JobSearch.Query.Fingerprint
import JobSearch.Query.Shape

/-!
# The engine

An engine is a calendar with the settings that the operations on queries need.
-/

namespace JobSearch

/-- A calendar with settings. -/
structure Engine where
  /-- The calendar in which texts are resolved to dates. -/
  calendar : Calendar
  /-- The number of months of a sweep. -/
  variationCount : Nat
  /-- The search endpoint. -/
  searchUrl : Text

namespace Engine

/-- The engine of a calendar with the standard settings. -/
def ofCalendar (cal : Calendar) : Engine := ⟨cal, defaultVariationCount, defaultSearchUrl⟩

/-- The engine of a configuration. The reference date counts as today; where it is missing, the day
of the clock does. -/
def ofConfig (clock : Date) (c : Config) : Engine :=
  ⟨Calendar.pinned (c.referenceDate.getD clock), c.variationCount, c.searchUrl⟩

/-- Writes parts as a query. -/
def build (e : Engine) (ps : List Part) : Except QueryError Text := Query.build e.calendar ps

/-- Copies of a query for the months of a sweep. -/
def variations (e : Engine) (query : Text) : Except QueryError (List Variation) :=
  Query.variations e.calendar query e.variationCount

/-- The URL that searches for a query. -/
def link (idna : Url.Idna) (e : Engine) (query : Text) : Except QueryError Url :=
  Query.link idna e.searchUrl query

end Engine

end JobSearch
