import JobSearch.Command.Run
import JobSearch.Config.Store

/-!
# Outcomes of the program

The program reads its arguments, then its configuration, and then carries out the command. It ends
with an exit code: 0 for success, 1 for a failure that is reported, 2 for wrong arguments. Wrong
arguments leave the configuration alone.
-/

namespace JobSearch

/-- What a run of the program shows. -/
structure Outcome where
  /-- The exit code. -/
  code : Nat
  /-- The standard output. -/
  output : Text
  /-- The text on the error stream. -/
  diagnosis : Text
  deriving DecidableEq, Repr

namespace Outcome

/-- How the program is called. -/
def usage : Text :=
  "Usage: jobquery <COMMAND>\n\n".toList ++
    "Commands: build, parse, variations, shape, url, id, help\n".toList

/-- The name and the version of the program. -/
def versionLine : Text := "jobquery 0.1.0\n".toList

/-- Each line of a text behind four spaces. -/
def indented (t : Text) : Text :=
  "    ".toList ++ t.flatMap fun c => if c = '\n' then "\n    ".toList else [c]

/-- The report of a failure with the error behind it. -/
def failure (message : Text) (cause : Option Text) : Outcome :=
  let behind := cause.elim [] fun t => "\n\nCaused by:\n".toList ++ indented t
  ⟨1, [], "Error: ".toList ++ message ++ behind ++ ['\n']⟩

/-- The outcome where there is nothing to carry out. -/
def ofStop : Command.Stop → Outcome
  | .help => ⟨0, usage, []⟩
  | .version => ⟨0, versionLine, []⟩
  | .misuse => ⟨2, [], usage⟩

/-- The outcome where the configuration cannot be loaded. -/
def ofConfigError (folder : Text) (e : ConfigError) : Outcome := failure (e.message folder) e.cause?

/-- The outcome of a command. -/
def ofResult : Except CommandError Text → Outcome
  | .ok t => ⟨0, t, []⟩
  | .error e => failure e.message e.cause?

end Outcome

/-- What the program finds around it. -/
structure Surroundings where
  /-- The path of the configuration's folder. -/
  folder : Text
  /-- The day of the clock. -/
  clock : Date
  /-- The rules for names of hosts. -/
  idna : Url.Idna
  /-- What can be read once the configuration is in a given state. -/
  sources : Store → Sources

/-- Runs the program. The second part is the stored configuration afterwards. -/
def Surroundings.run (w : Surroundings) (args : List Text) (s : Store) : Outcome × Store :=
  match Command.ofArguments args with
  | .error stop => (Outcome.ofStop stop, s)
  | .ok command =>
    match s.load w.idna with
    | (.error e, s) => (Outcome.ofConfigError w.folder e, s)
    | (.ok config, s) =>
      (Outcome.ofResult (command.run w.idna (Engine.ofConfig w.clock config) (w.sources s)), s)

end JobSearch
