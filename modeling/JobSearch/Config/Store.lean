import JobSearch.Config.Reader
import JobSearch.FileFault

/-!
# Stored configurations

A configuration is stored in one file of a folder. Loading creates the file with the standard
configuration where it is missing, and brings the file of a valid configuration into the form in
which it would be saved. A file that cannot be loaded is left as it is.
-/

namespace JobSearch

/-- The state of the place where a configuration is stored. -/
inductive Store where
  /-- There is no folder. -/
  | noFolder
  /-- A file stands where the folder should be. -/
  | blocked
  /-- The folder has no file for the configuration. -/
  | noFile
  /-- The folder has a file with these bytes. -/
  | file (bytes : List UInt8)
  /-- A folder stands where the file should be. -/
  | folder
  deriving DecidableEq, Repr

/-- Why a configuration cannot be loaded or saved. -/
inductive ConfigError where
  /-- The folder cannot be created. -/
  | notCreated (fault : FileFault)
  /-- The file cannot be read as a text. -/
  | notRead (fault : FileFault)
  /-- The file cannot be written. -/
  | notWritten (fault : FileFault)
  /-- The file is not the YAML of a configuration. -/
  | malformed
  /-- A sweep has no month. -/
  | noVariation
  /-- A sweep has too many months. -/
  | manyVariations (count : Nat)
  /-- The search endpoint is not a URL. -/
  | invalidUrl (searchUrl : Text) (error : Url.Error)
  deriving DecidableEq, Repr

/-- The path of something within a folder. -/
def pathWithin (folder name : Text) : Text :=
  if folder.isEmpty || folder.getLast? == some '/' then folder ++ name else folder ++ '/' :: name

/-- The path of the file within its folder. -/
def Store.path (folder : Text) : Text := pathWithin folder "config.yaml".toList

namespace ConfigError

/-- The error in words, given the path of the folder. -/
def message (folder : Text) : ConfigError → Text
  | notCreated _ => "failed to create ".toList ++ folder
  | notRead _ => "failed to read ".toList ++ Store.path folder
  | notWritten _ => "failed to write ".toList ++ Store.path folder
  | malformed => "config is malformed: ".toList ++ Store.path folder
  | noVariation => "variation_count must be greater than 0".toList
  | manyVariations count =>
    "variation_count must be at most ".toList ++ Text.ofNat maxVariationCount ++
      ", got ".toList ++ Text.ofNat count
  | invalidUrl searchUrl _ => "search_url is not a valid url: ".toList ++ searchUrl

/-- The error behind the error, in words. -/
def cause? : ConfigError → Option Text
  | notCreated fault => some fault.message
  | notRead fault => some fault.message
  | notWritten fault => some fault.message
  | invalidUrl _ error => some error.message
  | _ => none

end ConfigError

namespace Config

/-- Checks the settings: the number of months first, then the search endpoint. -/
def check (idna : Url.Idna) (c : Config) : Except ConfigError Unit :=
  if c.variationCount = 0 then .error .noVariation
  else if maxVariationCount < c.variationCount then .error (.manyVariations c.variationCount)
  else
    match Url.parse idna c.searchUrl with
    | .error e => .error (.invalidUrl c.searchUrl e)
    | .ok _ => .ok ()

/-- Reads a configuration and checks it. -/
def read (idna : Url.Idna) (t : Text) : Except ConfigError Config :=
  match ofText? t with
  | none => .error .malformed
  | some c => (c.check idna).map fun _ => c

end Config

namespace Store

/-- The file exists, or a folder in its place. -/
def isPresent : Store → Bool
  | file _ => true
  | folder => true
  | _ => false

/-- Creates the folder if there is none. -/
def createFolder : Store → Except ConfigError Store
  | noFolder => .ok noFile
  | blocked => .error (.notCreated .taken)
  | s => .ok s

/-- The text of the file. -/
def read : Store → Except ConfigError Text
  | noFolder => .error (.notRead .missing)
  | blocked => .error (.notRead .notFolder)
  | noFile => .error (.notRead .missing)
  | file bytes =>
    match textOfBytes bytes with
    | .ok t => .ok t
    | .error fault => .error (.notRead fault)
  | folder => .error (.notRead .isFolder)

/-- Writes a text into the file. -/
def write (t : Text) : Store → Except ConfigError Store
  | noFolder => .error (.notWritten .missing)
  | blocked => .error (.notWritten .notFolder)
  | noFile => .ok (file t.utf8)
  | file _ => .ok (file t.utf8)
  | folder => .error (.notWritten .isFolder)

/-- What was written is read. -/
theorem read_write {t : Text} {s s' : Store} (h : s.write t = .ok s') : s'.read = .ok t := by
  cases s <;> simp only [write, reduceCtorEq, Except.ok.injEq] at h <;> subst h <;>
    simp [read, textOfBytes]

/-- Saves a configuration. -/
def save (c : Config) (s : Store) : Except ConfigError Store := s.write c.text

/-- The store with the standard configuration where the file is missing. -/
def prepare (s : Store) : Except ConfigError Store :=
  if s.isPresent then .ok s
  else
    match s.createFolder with
    | .error e => .error e
    | .ok s => s.save .standard

/-- Loads the configuration from a store that has a file. The file of a valid configuration is saved
again unless it has the text that saving gives. -/
def loadPresent (idna : Url.Idna) (s : Store) : Except ConfigError Config × Store :=
  match s.read with
  | .error e => (.error e, s)
  | .ok t =>
    match Config.read idna t with
    | .error e => (.error e, s)
    | .ok c =>
      if t = c.text then (.ok c, s)
      else
        match s.save c with
        | .error e => (.error e, s)
        | .ok s => (.ok c, s)

/-- Loads the configuration. The second part is the store afterwards. -/
def load (idna : Url.Idna) (s : Store) : Except ConfigError Config × Store :=
  match s.prepare with
  | .error e => (.error e, s)
  | .ok s => s.loadPresent idna

end Store

end JobSearch
