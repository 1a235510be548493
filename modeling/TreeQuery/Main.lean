import TreeQuery.CommandLine

/-!
# The program

Reads the named files and the environment, and prints the statements or the failure.
-/

namespace TreeQuery

/-- Why a file was not read. -/
def FileFault.ofError : IO.Error → FileFault
  | .noFileOrDirectory _ _ _ => .missing
  | .permissionDenied _ _ _ => .forbidden
  | .inappropriateType _ code _ => if code = 20 then .notDirectory else .directory
  | .invalidArgument _ code _ => if code = 36 then .longName else .nulInName
  | _ => .notText

/-- The contents of a file. -/
def readContents (path : String) : IO (Except FileFault String) := do
  try return .ok (← IO.FS.readFile path) catch error => return .error (.ofError error)

/-- The bytes of a variable, if it is set. -/
def readVariable (name : String) : IO (Option ByteArray) := do
  return (← IO.getEnv name).map String.toUTF8

/-- The contents of each file that an argument may name. -/
def readFiles (paths : List String) : IO (List (String × Except FileFault String)) :=
  paths.mapM fun path => return (path, ← readContents path)

/-- A run of the program with its exit code. -/
def runProgram (arguments : List String) : IO UInt32 := do
  match CommandLine.Options.ofArguments arguments with
  | .error error =>
    if error = .help ∨ error = .version then
      IO.println error.message
      return 0
    else
      IO.eprintln s!"Error: {error.message}"
      return 2
  | .ok options =>
    let contents ← readFiles ([options.schema, options.query] ++ options.config.toList)
    let files := fun path => (contents.lookup path).getD (.error .missing)
    let values ← Config.variableNames.mapM fun name => return (name, ← readVariable name)
    let env := fun name => (values.lookup name).join
    match CommandLine.run options env files with
    | .ok output =>
      IO.println output
      return 0
    | .error failure =>
      IO.eprintln s!"Error: {failure.message}"
      return 1

end TreeQuery

def main (arguments : List String) : IO UInt32 :=
  TreeQuery.runProgram arguments
