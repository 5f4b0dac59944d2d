import JobSearch.Command.Arguments

/-!
# Commands

A command says what is to be done and with what. Commands are read from the arguments of the command
line, of which the first one names the command.
-/

namespace JobSearch

/-- Where a form is read from. -/
inductive FormSource where
  /-- The standard input. -/
  | input
  /-- The file at a path. -/
  | file (path : Text)
  deriving DecidableEq, Repr

/-- Parts of a query as options give them. -/
structure PartOptions where
  /-- The free texts. -/
  texts : List Text
  /-- The salary range. -/
  salary : Option Text
  /-- The sites. -/
  sites : List Text
  /-- The date that postings come after. -/
  after : Option Text
  /-- The date that postings come before. -/
  before : Option Text
  /-- The option of the last month, with or without a text. -/
  lastMonth : Option (Option Text)
  deriving DecidableEq, Repr

/-- What is to be done. -/
inductive Command where
  /-- Writes the parts that options give as a query. -/
  | buildOptions (options : PartOptions)
  /-- Writes the parts of a form as a query. -/
  | buildForm (source : FormSource)
  /-- Reads a query into parts. -/
  | parse (query : Text)
  /-- Sweeps a query over months, as many as asked for or as configured. -/
  | variations (query : Text) (count : Option Nat)
  /-- Sums up a query. -/
  | shape (query : Text)
  /-- Links to the results of a query. -/
  | url (query : Text)
  /-- Identifies a query. -/
  | id (query : Text)
  deriving DecidableEq, Repr

namespace Command

/-- The place that a path stands for; a hyphen is the standard input. -/
def sourceOfPath (path : Text) : FormSource := if path = ['-'] then .input else .file path

/-- The options that a form excludes. -/
def partFlags : List Flag := [.text, .site, .after, .before, .lastMonth, .salary]

/-- The command that builds a query. -/
def ofBuildArguments (a : Arguments) : Except Stop Command :=
  match a.text? .json with
  | some path =>
    if partFlags.any a.has then .error .misuse else .ok (.buildForm (sourceOfPath path))
  | none =>
    .ok (.buildOptions ⟨a.texts .text, a.text? .salary, a.texts .site, a.text? .after,
      a.text? .before, (a.values .lastMonth).head?⟩)

/-- The command of a verb with its arguments. -/
def ofParts (v : Verb) (a : Arguments) : Except Stop Command :=
  match v, a.query with
  | .build, _ => ofBuildArguments a
  | _, none => .error .misuse
  | .parse, some query => .ok (.parse query)
  | .variations, some query => .ok (.variations query ((a.text? .count).bind Flag.months?))
  | .shape, some query => .ok (.shape query)
  | .url, some query => .ok (.url query)
  | .id, some query => .ok (.id query)

/-- The name of the command that shows help. -/
def helpName : Text := "help".toList

/-- What a call for help on some commands comes to. -/
def helpOn : List Text → Stop
  | [] => .help
  | [t] => if t = helpName || (Verb.ofName? t).isSome then .help else .misuse
  | _ => .misuse

/-- Reads a command. -/
def ofArguments : List Text → Except Stop Command
  | [] => .error .misuse
  | t :: ts =>
    match Verb.ofName? t with
    | some v =>
      match Arguments.empty.addAll v.grammar ts with
      | .error e => .error e
      | .ok a => ofParts v a
    | none =>
      if t = helpName then .error (helpOn ts)
      else
        match Arguments.empty.addAll .outer [t] with
        | .error e => .error e
        | .ok _ => .error .misuse

end Command

end JobSearch
