import JobSearch.Command.Outcome
import Std.Time.Zoned

/-!
# The program on the command line

This is the outer layer: it looks at the clock, the environment and the files, lets the library
decide, and shows and stores what the library returns.
-/

namespace JobSearch.Program

/-- The day of the clock. -/
def clock : IO Date := do
  let day ← Std.Time.PlainDate.now
  match Date.ofYMD? day.year day.month.val.toNat day.day.val.toNat with
  | some date => return date
  | none => throw (IO.userError "the clock is outside the calendar")

/-- The folder of the configuration: the one that the environment names, or one in the home
folder. -/
def folder? : IO (Option Text) := do
  match ← IO.getEnv "JOBQUERY_BASE_PATH" with
  | some path => return some path.toList
  | none =>
    return (← IO.getEnv "HOME").map fun home =>
      pathWithin (pathWithin home.toList ".config".toList) "jobquery".toList

/-- A path for the operating system. -/
def pathOf (path : Text) : String := String.ofList path

/-- There is a folder at a path. -/
def isFolder (path : Text) : IO Bool := (System.mkFilePath [pathOf path]).isDir

/-- There is something at a path. -/
def isPresent (path : Text) : IO Bool := (System.mkFilePath [pathOf path]).pathExists

/-- The bytes of a file. -/
def bytesAt (path : Text) : IO (Except FileFault (List UInt8)) := do
  if ← isFolder path then return .error .isFolder
  try
    return .ok (← IO.FS.readBinFile (pathOf path)).toList
  catch
    | .permissionDenied .. => return .error .forbidden
    | _ => return .error .missing

/-- The state of the stored configuration. -/
def storeAt (folder : Text) : IO Store := do
  let path := Store.path folder
  if ← isFolder path then return .folder
  if ← isPresent path then
    match ← bytesAt path with
    | .ok bytes => return .file bytes
    | .error _ => return .folder
  if ← isFolder folder then return .noFile
  return if ← isPresent folder then .blocked else .noFolder

/-- Brings the stored configuration into another state. -/
def keep (folder : Text) (s : Store) : IO Unit := do
  match s with
  | .file bytes =>
    IO.FS.createDirAll (pathOf folder)
    IO.FS.writeBinFile (pathOf (Store.path folder)) bytes.toByteArray
  | _ => return

/-- What a command can read. Only what it does read is looked at. -/
def sourcesOf (c : Command) : IO Sources := do
  match c with
  | .buildForm .input =>
    let bytes ← (← IO.getStdin).readBinToEnd
    return ⟨.ok bytes.toList, fun _ => .error .missing⟩
  | .buildForm (.file path) =>
    let bytes ← bytesAt path
    return ⟨.ok [], fun _ => bytes⟩
  | _ => return ⟨.ok [], fun _ => .error .missing⟩

/-- Runs the program. -/
def run (idna : Url.Idna) (args : List Text) : IO Outcome := do
  match Command.ofArguments args with
  | .error stop => return Outcome.ofStop stop
  | .ok command =>
    match ← folder? with
    | none => return Outcome.failure "home directory path is empty".toList none
    | some folder =>
      let before ← storeAt folder
      let (config, after) := before.load idna
      if after ≠ before then keep folder after
      match config with
      | .error e => return Outcome.ofConfigError folder e
      | .ok config =>
        let engine := Engine.ofConfig (← clock) config
        return Outcome.ofResult (command.run idna engine (← sourcesOf command))

end JobSearch.Program

/-- Runs the program with an empty table, so of the names that are not plain it knows those alone
that are encoded already. -/
def main (args : List String) : IO UInt32 := do
  let outcome ← JobSearch.Program.run (.ofTable []) (args.map String.toList)
  IO.print (String.ofList outcome.output)
  IO.eprint (String.ofList outcome.diagnosis)
  return outcome.code.toUInt32
