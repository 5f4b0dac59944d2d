import JobSearch.Command
import JobSearch.Command.Report
import JobSearch.Engine
import JobSearch.FileFault
import JobSearch.Form.Reader

/-!
# Carrying out commands

A command is carried out by an engine and comes to a text or to an error. Besides the engine it
depends on the form that it reads, if it reads one.
-/

namespace JobSearch

/-- Why a command fails. -/
inductive CommandError where
  /-- An operation on queries fails. -/
  | query (error : QueryError)
  /-- The text given as a salary range is none. -/
  | notSalary (t : Text)
  /-- The standard input cannot be read. -/
  | inputNotRead (fault : FileFault)
  /-- A file cannot be read. -/
  | fileNotRead (path : Text) (fault : FileFault)
  deriving DecidableEq

namespace CommandError

/-- The error in words. -/
def message : CommandError → Text
  | query error => error.message
  | notSalary t => "salary must be MIN.. or MIN..MAX, got '".toList ++ t ++ ['\x27']
  | inputNotRead _ => "failed to read parts from stdin".toList
  | fileNotRead path _ => "failed to read ".toList ++ path

/-- The error behind the error, in words. -/
def cause? : CommandError → Option Text
  | query (.url error) => some error.message
  | query (.json error) => some error.message
  | inputNotRead fault => some fault.message
  | fileNotRead _ fault => some fault.message
  | _ => none

end CommandError

/-- What a command can read. -/
structure Sources where
  /-- The bytes of the standard input. -/
  input : Except FileFault (List UInt8)
  /-- The bytes of the file at a path. -/
  file : Text → Except FileFault (List UInt8)

/-- Reads the text of a form. -/
def Sources.form (s : Sources) : FormSource → Except CommandError Text
  | .input => (s.input.bind textOfBytes).mapError .inputNotRead
  | .file path => ((s.file path).bind textOfBytes).mapError (.fileNotRead path)

/-- Reads the parts of a form. -/
def Sources.parts (s : Sources) (source : FormSource) : Except CommandError (List Part) :=
  (s.form source).bind fun t => (Form.parts t).mapError .query

namespace PartOptions

/-- Reads a salary range. -/
def salaryOf (t : Text) : Except CommandError Part :=
  match Part.ofToken t with
  | .error e => .error (.query e)
  | .ok (some (.salary range)) => .ok (.salary range)
  | .ok _ => .error (.notSalary t)

/-- The parts that options give, always in the same order. -/
def parts (o : PartOptions) : Except CommandError (List Part) :=
  (o.salary.toList.mapM salaryOf).map fun salary =>
    o.texts.map .text ++ salary ++ o.sites.map .site ++ o.after.toList.map .after ++
      o.before.toList.map .before ++ o.lastMonth.toList.map .lastMonth

end PartOptions

/-- A text as a line. -/
def asLine (t : Text) : Text := t ++ ['\n']

namespace Command

/-- Shows the outcome of an operation on queries. -/
def shown (render : α → Text) (result : Except QueryError α) : Except CommandError Text :=
  (result.map fun x => asLine (render x)).mapError .query

/-- Shows the query that is built from parts. -/
def built (e : Engine) (ps : List Part) : Except CommandError Text :=
  shown (fun t => t) (e.build ps)

/-- Carries out a command. -/
def run (idna : Url.Idna) (e : Engine) (s : Sources) (c : Command) : Except CommandError Text :=
  match c with
  | buildOptions options => options.parts.bind (built e)
  | buildForm source => (s.parts source).bind (built e)
  | parse query => shown (fun ps => (Part.listJson ps).pretty) (Query.parse query)
  | variations query count =>
    let e := { e with variationCount := count.getD e.variationCount }
    shown (fun vs => (Json.Value.array (vs.map Variation.json)).pretty) (e.variations query)
  | shape query => shown (fun s => s.json.pretty) (Query.shape query)
  | url query => shown Url.toText (e.link idna query)
  | id query => shown Uuid.toText (Query.fingerprint query)

end Command

end JobSearch
