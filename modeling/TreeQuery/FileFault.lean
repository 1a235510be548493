/-!
# Files that cannot be read
-/

namespace TreeQuery

/-- Why a file cannot be read as a text. -/
inductive FileFault
  | missing
  | forbidden
  | notDirectory
  | directory
  | longName
  | nulInName
  | notText
  deriving DecidableEq

/-- What the system says of a file. -/
def FileFault.message : FileFault → String
  | .missing => "No such file or directory (os error 2)"
  | .forbidden => "Permission denied (os error 13)"
  | .notDirectory => "Not a directory (os error 20)"
  | .directory => "Is a directory (os error 21)"
  | .longName => "File name too long (os error 36)"
  | .nulInName => "file name contained an unexpected NUL byte"
  | .notText => "stream did not contain valid UTF-8"

/-- The contents of files by their paths. -/
abbrev Files := String → Except FileFault String

end TreeQuery
