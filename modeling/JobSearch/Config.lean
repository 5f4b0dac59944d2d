import JobSearch.Calendar.Iso
import JobSearch.Query.Link
import JobSearch.Query.Sweep
import JobSearch.Yaml.Writer

/-!
# Configuration

A configuration holds how long a sweep is, where queries are sent and which day counts as today.
Its text has one line for each setting, always in the same order.
-/

namespace JobSearch

/-- The settings of the program. -/
structure Config where
  /-- The number of months of a sweep. -/
  variationCount : Nat
  /-- The search endpoint. -/
  searchUrl : Text
  /-- The day that counts as today, if it is not the day of the clock. -/
  referenceDate : Option Date
  deriving DecidableEq

namespace Config

/-- The settings that hold unless others are given. -/
def standard : Config := ⟨defaultVariationCount, defaultSearchUrl, none⟩

/-- The name of the setting `variationCount`. -/
def countKey : Text := "variation_count".toList

/-- The name of the setting `searchUrl`. -/
def urlKey : Text := "search_url".toList

/-- The name of the setting `referenceDate`. -/
def dateKey : Text := "reference_date".toList

/-- The reference date as a scalar: between apostrophes, or `null`. -/
def dateLine : Option Date → Text
  | none => "null\n".toList
  | some d => Yaml.singleQuoted d.iso ++ ['\n']

/-- The text of a configuration. -/
def text (c : Config) : Text :=
  Yaml.entryLine countKey (Text.ofNat c.variationCount ++ ['\n']) ++
    Yaml.entryLine urlKey (Yaml.textLine c.searchUrl) ++
    Yaml.entryLine dateKey (dateLine c.referenceDate)

end Config

end JobSearch
