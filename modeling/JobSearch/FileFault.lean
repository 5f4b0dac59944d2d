import JobSearch.Text.Basic

/-!
# Faults of files
-/

namespace JobSearch

/-- Why a file or a folder cannot be used. -/
inductive FileFault where
  /-- There is no such file. -/
  | missing
  /-- A file stands where a folder is needed. -/
  | notFolder
  /-- A folder stands where a file is needed. -/
  | isFolder
  /-- The name is taken. -/
  | taken
  /-- The user may not do this. -/
  | forbidden
  /-- The bytes are no text in UTF-8. -/
  | notText
  deriving DecidableEq, Repr

/-- The fault in words. -/
def FileFault.message : FileFault → Text
  | .missing => "No such file or directory (os error 2)".toList
  | .notFolder => "Not a directory (os error 20)".toList
  | .isFolder => "Is a directory (os error 21)".toList
  | .taken => "File exists (os error 17)".toList
  | .forbidden => "Permission denied (os error 13)".toList
  | .notText => "stream did not contain valid UTF-8".toList

/-- The text in these bytes. -/
def textOfBytes (bytes : List UInt8) : Except FileFault Text :=
  match Text.ofUtf8? bytes with
  | some t => .ok t
  | none => .error .notText

end JobSearch
