import JobSearch.Config
import JobSearch.Yaml.Node

/-!
# Reading configurations

A configuration is read from the mapping of a YAML document. Settings that are missing have their
standard values, unknown names are passed over, and no setting may be given twice. An empty document
is the standard configuration.
-/

namespace JobSearch.Config

/-- The tag of the absent value. -/
def nullTag : Text := "tag:yaml.org,2002:null".toList

/-- The tag of integers. -/
def intTag : Text := "tag:yaml.org,2002:int".toList

/-- Reads a number of months: a natural number that is not quoted. A literal block is one if its tag
says so. -/
def count? : Yaml.Node → Option Nat
  | .scalar tag style value =>
    if style = .plain ∨ (style = .literal ∧ tag = some intTag) then Yaml.natural? Text.maxWord value
    else none
  | _ => none

/-- Reads a search endpoint: any scalar, as it is written. -/
def url? : Yaml.Node → Option Text
  | .scalar _ _ value => some value
  | _ => none

/-- Reads a reference date: a date, or nothing where a plain scalar stands for no value. -/
def date? : Yaml.Node → Option (Option Date)
  | .scalar tag style value =>
    if style = .plain ∧ tag = none ∧ (value = [] ∨ Yaml.isNull value) then some none
    else if style = .plain ∧ tag = some nullTag then
      if Yaml.isNull value then some none else none
    else (Date.ofIso? value).map some
  | _ => none

/-- The settings that a mapping gives; a setting is `none` as long as it is missing. -/
structure Given where
  /-- The number of months of a sweep. -/
  count : Option Nat
  /-- The search endpoint. -/
  url : Option Text
  /-- The reference date. -/
  date : Option (Option Date)
  deriving DecidableEq

namespace Given

/-- No setting at all. -/
def nothing : Given := ⟨none, none, none⟩

/-- Adds a setting, given by its name and its value. -/
def add (g : Given) (name : Text) (value : Yaml.Node) : Option Given :=
  if name = countKey then
    if g.count.isSome then none else (count? value).map fun n => { g with count := some n }
  else if name = urlKey then
    if g.url.isSome then none else (url? value).map fun t => { g with url := some t }
  else if name = dateKey then
    if g.date.isSome then none else (date? value).map fun d => { g with date := some d }
  else some g

/-- The configuration with the standard values where settings are missing. -/
def complete (g : Given) : Config :=
  ⟨g.count.getD standard.variationCount, g.url.getD standard.searchUrl,
    g.date.getD standard.referenceDate⟩

end Given

/-- Reads the entries of a mapping. Each name is a scalar. -/
def entries? (d : Yaml.Document) (g : Given) : List (Yaml.Node × Yaml.Node) → Option Given
  | [] => some g
  | (key, value) :: rest =>
    match d.resolve key, d.resolve value with
    | some (.scalar _ _ name), some value => (g.add name value).bind fun g => entries? d g rest
    | _, _ => none

/-- Reads a configuration from a document. -/
def ofDocument? (d : Yaml.Document) : Option Config :=
  match d.root with
  | none => some standard
  | some (.scalar _ .plain []) => some standard
  | some (.mapping entries) => (entries? d .nothing entries).map Given.complete
  | _ => none

/-- Reads a configuration. -/
def ofText? (t : Text) : Option Config := (Yaml.Document.ofText? t).bind ofDocument?

end JobSearch.Config
