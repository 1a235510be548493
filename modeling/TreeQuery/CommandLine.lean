import TreeQuery.Planner
import TreeQuery.Config.Load
import TreeQuery.Query.Document
import TreeQuery.Schema.Load

/-!
# The command line

Reads a schema and a query from files and writes the statements as JSON. The work is a function of
the arguments, the environment and the contents of the files, so that only reading and printing are
left to the program.
-/

namespace TreeQuery.CommandLine

/-! ## Arguments -/

/-- Why there is nothing to do: the arguments are refused, or ask for something else. -/
inductive UsageError
  | missingArgument
  | unknownArgument
  | missingValue
  | unexpectedValue
  | repeatedArgument
  | help
  | version
  deriving DecidableEq

def UsageError.message : UsageError → String
  | .missingArgument => "the arguments --schema <SCHEMA> and --query <QUERY> are required"
  | .unknownArgument => "unexpected argument"
  | .missingValue => "a value is required but none was supplied"
  | .unexpectedValue => "a value was supplied where none is taken"
  | .repeatedArgument => "an argument cannot be used multiple times"
  | .help => "usage: sqltree --schema <SCHEMA> --query <QUERY> [--config <CONFIG>] [--pretty]"
  | .version => "sqltree 0.3.0-dev"

/-- The options that take a path. -/
inductive PathOption
  | schema | query | config
  deriving DecidableEq

inductive OptionName
  | path (option : PathOption)
  | pretty
  | help
  | version

def OptionName.ofLong? : String → Option OptionName
  | "schema" => some (.path .schema)
  | "query" => some (.path .query)
  | "config" => some (.path .config)
  | "pretty" => some .pretty
  | "help" => some .help
  | "version" => some .version
  | _ => none

def OptionName.ofShort? : Char → Option OptionName
  | 'h' => some .help
  | 'V' => some .version
  | _ => none

/-- The arguments read so far. The last path option is kept open, with its path if that has been
read: it is looked at only when the next option begins or the arguments end. -/
structure Given where
  paths : List (PathOption × String)
  pretty : Bool
  last : Option (PathOption × Option String)

/-- The arguments of a run. -/
structure Options where
  schema : String
  query : String
  config : Option String
  pretty : Bool
  deriving DecidableEq

namespace Given

def empty : Given := ⟨[], false, none⟩

/-- Takes the path of an option: no option is given twice, and no path is empty. -/
def addPath (given : Given) (option : PathOption) (path : String) : Except UsageError Given :=
  if (given.paths.lookup option).isSome then .error .repeatedArgument
  else if path = "" then .error .missingValue
  else .ok { given with paths := (option, path) :: given.paths }

/-- Looks at the option that is still open. -/
def close (given : Given) : Except UsageError Given :=
  match given.last with
  | none => .ok given
  | some (_, none) => .error .missingValue
  | some (option, some path) => addPath { given with last := none } option path

/-- Takes an option, with the value that stands behind an equals sign. -/
def addOption (given : Given) : OptionName → Option String → Except UsageError Given
  | .path option, some path => do (← given.close).addPath option path
  | .path option, none => do return { ← given.close with last := some (option, none) }
  | _, some _ => .error .unexpectedValue
  | .pretty, none => do
    let given ← given.close
    if given.pretty then .error .repeatedArgument else return { given with pretty := true }
  | .help, none => do
    let _ ← given.close
    .error .help
  | .version, none => do
    let _ ← given.close
    .error .version

/-- Takes the path of the open option. Nothing else stands by itself. -/
def addText (given : Given) (text : String) : Except UsageError Given :=
  match given.last with
  | some (option, none) => .ok { given with last := some (option, some text) }
  | _ => .error .unknownArgument

/-- Reads arguments from left to right. Behind two dashes there are no options. -/
def read (given : Given) : List String → Except UsageError Given
  | [] => given.close
  | argument :: rest => do
    match argument.toList with
    | ['-', '-'] => if rest = [] then given.close else .error .unknownArgument
    | '-' :: '-' :: text =>
      let name := text.takeWhile (· ≠ '=')
      let value := match text.drop name.length with
        | _ :: value => some (String.ofList value)
        | [] => none
      match OptionName.ofLong? (String.ofList name) with
      | some option => read (← given.addOption option value) rest
      | none => .error .unknownArgument
    | '-' :: letter :: _ =>
      match OptionName.ofShort? letter with
      | some option => read (← given.addOption option none) rest
      | none => .error .unknownArgument
    | _ => read (← given.addText argument) rest

end Given

/-- The options that the arguments give. -/
def Options.ofArguments (arguments : List String) : Except UsageError Options := do
  let given ← Given.empty.read arguments
  match given.paths.lookup .schema, given.paths.lookup .query with
  | some schema, some query =>
    return ⟨schema, query, given.paths.lookup .config, given.pretty⟩
  | _, _ => .error .missingArgument

/-! ## Work -/

/-- At which step the work fails, and why. -/
inductive Failure
  | usage (error : UsageError)
  | config (path : Option String) (error : ConfigError)
  | schema (path : String) (error : SchemaLoadError)
  | tree (violation : SchemaViolation)
  | queryFile (path : String) (fault : FileFault)
  | query (error : ReadError)
  | build (error : PlanError)
  deriving DecidableEq

/-- What was being done when the work failed. -/
def Failure.context : Failure → Option String
  | .usage _ => none
  | .config (some path) _ => some s!"loading config {path}"
  | .config none _ => some "loading config from environment"
  | .schema path _ => some s!"loading schema {path}"
  | .tree _ => some "validating schema"
  | .queryFile path _ => some s!"reading query {path}"
  | .query _ => some "parsing query"
  | .build _ => some "building SQL"

/-- Why it failed. -/
def Failure.cause : Failure → String
  | .usage error => error.message
  | .config _ error => error.message
  | .schema _ error => error.message
  | .tree violation => violation.message
  | .queryFile _ fault => fault.message
  | .query .unreadable => "the text is not a query"
  | .query (.malformed fault) => (QueryViolation.malformedFilter fault).message
  | .build error => error.message

def Failure.message (f : Failure) : String :=
  Text.separated ": " (f.context.toList ++ [f.cause])

/-- The statements as an object with a member for each entity. -/
def statementsJson (statements : List (String × Statement)) : Json.Value :=
  .object (statements.map fun (name, statement) =>
    (name, .object [("sql", .string statement.sql),
      ("binds", .array (statement.binds.map Literal.toJson))]))

/-- The output of a run with the given options. -/
def run (options : Options) (env : Config.Environment) (files : Files)
    (json : Json.Codec := .standard) : Except Failure String := do
  let config ← match options.config with
    | some path => (Config.load path files).mapError (.config (some path))
    | none => (Config.ofEnvironment env).mapError (.config none)
  let schema ← (Schema.load options.schema files json).mapError (.schema options.schema)
  let planner ← (Planner.ofSchema schema config).mapError .tree
  let text ← (files options.query).mapError (.queryFile options.query)
  let query ← (Query.read text json).mapError .query
  let statements ← (planner.answer query).1.mapError .build
  let output := statementsJson statements
  return if options.pretty then json.writePretty output else json.write output

/-- The output for the arguments of a run. -/
def answer (arguments : List String) (env : Config.Environment)
    (files : Files) (json : Json.Codec := .standard) : Except Failure String := do
  run (← (Options.ofArguments arguments).mapError .usage) env files json

end TreeQuery.CommandLine
