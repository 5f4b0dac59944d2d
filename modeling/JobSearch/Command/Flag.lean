import JobSearch.Query.Sweep

/-!
# Commands and their options by name

Each command has a name and the options that it knows. An option is given by its name after two
hyphens, and some also by a letter after one hyphen.
-/

namespace JobSearch.Command

/-- An option. -/
inductive Flag where
  /-- Asks for help. -/
  | help
  /-- Asks for the version. -/
  | version
  /-- A free text. -/
  | text
  /-- A site. -/
  | site
  /-- The date that postings come after. -/
  | after
  /-- The date that postings come before. -/
  | before
  /-- Postings since the month before a date. -/
  | lastMonth
  /-- A salary range. -/
  | salary
  /-- Where to read a form from. -/
  | json
  /-- The number of months of a sweep. -/
  | count
  deriving DecidableEq, Repr

/-- What an option does with a value. -/
inductive Need where
  /-- It takes none. -/
  | never
  /-- It takes one or none. -/
  | maybe
  /-- It takes one. -/
  | always
  deriving DecidableEq, Repr

namespace Flag

/-- The name of an option. -/
def name : Flag → Text
  | help => "help".toList
  | version => "version".toList
  | text => "text".toList
  | site => "site".toList
  | after => "after".toList
  | before => "before".toList
  | lastMonth => "last-month".toList
  | salary => "salary".toList
  | json => "json".toList
  | count => "count".toList

/-- The letter of an option. -/
def letter? : Flag → Option Char
  | help => some 'h'
  | version => some 'V'
  | text => some 't'
  | site => some 's'
  | count => some 'c'
  | _ => none

/-- What an option does with a value. -/
def need : Flag → Need
  | help => .never
  | version => .never
  | lastMonth => .maybe
  | _ => .always

/-- An option may be given more than once. -/
def isRepeatable : Flag → Bool
  | text => true
  | site => true
  | _ => false

/-- Reads a number of months that a sweep may have. -/
def months? (t : Text) : Option Nat :=
  (Text.toWord? t).bind fun n =>
    if 1 ≤ n.toNat ∧ n.toNat ≤ maxVariationCount then some n.toNat else none

/-- An option may have this value. -/
def accepts : Flag → Text → Bool
  | count, t => (months? t).isSome
  | _, _ => true

end Flag

/-- A command by its name. -/
inductive Verb where
  /-- Writes a query. -/
  | build
  /-- Reads a query. -/
  | parse
  /-- Sweeps a query over months. -/
  | variations
  /-- Sums up a query. -/
  | shape
  /-- Links to the results of a query. -/
  | url
  /-- Identifies a query. -/
  | id
  deriving DecidableEq, Repr

/-- What arguments may be given. -/
structure Grammar where
  /-- The options. -/
  flags : List Flag
  /-- A query may be given, even one that starts with a hyphen. -/
  takesQuery : Bool
  deriving DecidableEq, Repr

namespace Grammar

/-- The option with this name. -/
def named? (g : Grammar) (name : Text) : Option Flag := g.flags.find? fun f => f.name == name

/-- The option with this letter. -/
def lettered? (g : Grammar) (letter : Char) : Option Flag :=
  g.flags.find? fun f => f.letter? == some letter

/-- The arguments in front of a command. -/
def outer : Grammar := ⟨[.help, .version], false⟩

end Grammar

namespace Verb

/-- All commands. -/
def all : List Verb := [build, parse, variations, shape, url, id]

/-- The name of a command. -/
def name : Verb → Text
  | build => "build".toList
  | parse => "parse".toList
  | variations => "variations".toList
  | shape => "shape".toList
  | url => "url".toList
  | id => "id".toList

/-- The command with this name. -/
def ofName? (name : Text) : Option Verb := all.find? fun v => v.name == name

/-- Every command is found by its name. -/
@[simp] theorem ofName?_name (v : Verb) : ofName? v.name = some v := by
  cases v <;> decide

/-- The arguments of a command. -/
def grammar : Verb → Grammar
  | build =>
    ⟨[.help, .text, .site, .after, .before, .lastMonth, .salary, .json], false⟩
  | variations => ⟨[.help, .count], true⟩
  | _ => ⟨[.help], true⟩

end Verb

end JobSearch.Command
