import TreeQuery.Config
import TreeQuery.FileFault
import TreeQuery.Json.Value
import TreeQuery.Text.Separated
import TreeQuery.Yaml.Shape

/-!
# Loading a configuration

A configuration comes from a YAML text or from environment variables. What is left out has its
default; what is there must make a usable column name.
-/

namespace TreeQuery

/-- What is wrong with a column name. -/
inductive ColumnFault
  | empty
  | quote
  deriving DecidableEq

/-- The fields that hold column names. -/
inductive ColumnField
  | identifierColumn
  | referencePrefix
  deriving DecidableEq

def ColumnField.name : ColumnField → String
  | .identifierColumn => "identifier_column"
  | .referencePrefix => "reference_column_prefix"

def ColumnFault.code : ColumnFault → String
  | .empty => "length"
  | .quote => "quote_in_column_name"

def ColumnFault.message (field : ColumnField) : ColumnFault → String
  | .quote => "Column names cannot contain double quotes"
  | .empty =>
    match field with
    | .identifierColumn => "Identifier column cannot be empty"
    | .referencePrefix => "Reference column prefix cannot be empty"

/-- Why there is no configuration. -/
inductive ConfigError
  /-- The value of an environment variable is no text. -/
  | notUnicode
  /-- The value of an environment variable is no flag. -/
  | badFlag (name value : String)
  | fileUnread
  | badContent (content : String)
  | invalid (faults : List (ColumnField × ColumnFault))
  deriving DecidableEq

def ConfigError.message : ConfigError → String
  | .notUnicode => "Environment variable error: environment variable was not valid unicode"
  | .badFlag name value =>
    s!"Parse error for {name}: {value} - provided string was not `true` or `false`"
  | .fileUnread => "Parse error for yaml_file: file read failed"
  | .badContent content => s!"Parse error for yaml_content: {content}"
  | .invalid faults =>
    "Validation error: " ++ Text.separated "\n"
      (faults.map fun (field, fault) => field.name ++ ": " ++ fault.message field)

/-- A name that is neither empty nor holds a quote has no fault. -/
def columnFault? (name : String) : Option ColumnFault :=
  if name = "" then some .empty else if name.contains '"' then some .quote else none

namespace Config

/-- The faults of all fields, in the order of their names. -/
def faults (c : Config) : List (ColumnField × ColumnFault) :=
  let columns := [(ColumnField.identifierColumn, c.identifierColumn),
    (.referencePrefix, c.referencePrefix)]
  columns.filterMap fun (field, name) => (columnFault? name).map (field, ·)

def validated (c : Config) : Except ConfigError Config :=
  if c.faults = [] then .ok c else .error (.invalid c.faults)

/-- The fields of a configuration; those that are left out have their defaults. -/
def ofMarkup? {δ : Type} [Markup δ] (d : δ) : Option Config := do
  let field ← Markup.fields? ["identifier_column", "reference_column_prefix", "cache_enabled"] d
  let default : Config := {}
  let identifierColumn ←
    (field "identifier_column").elim (some default.identifierColumn) Markup.text?
  let referencePrefix ←
    (field "reference_column_prefix").elim (some default.referencePrefix) Markup.text?
  let cacheEnabled ← (field "cache_enabled").elim (some default.cacheEnabled) Markup.flag?
  return ⟨identifierColumn, referencePrefix, cacheEnabled⟩

/-- What is read of a configuration document. -/
def shape : Yaml.Shape :=
  .record [("identifier_column", .text), ("reference_column_prefix", .text),
    ("cache_enabled", .text)]

def ofYaml (content : String) : Except ConfigError Config :=
  match (Yaml.Place.readAs? shape content).bind ofMarkup? with
  | none => .error (.badContent content)
  | some c => c.validated

/-- The configuration in the file of a path. -/
def load (path : String) (files : Files) : Except ConfigError Config :=
  match files path with
  | .error _ => .error .fileUnread
  | .ok content => ofYaml content

/-- The names of the variables that hold a configuration, in the order in which they are read. -/
def variableNames : List String :=
  ["SQLTREE_IDENTIFIER_COLUMN", "SQLTREE_REFERENCE_COLUMN_PREFIX", "SQLTREE_CACHE_ENABLED"]

/-- The environment: the bytes of each variable that is set. -/
abbrev Environment := String → Option ByteArray

/-- The text of a variable, or a default if it is not set. -/
def variableOr (env : Environment) (name default : String) : Except ConfigError String :=
  match env name with
  | none => .ok default
  | some bytes =>
    match String.fromUTF8? bytes with
    | some text => .ok text
    | none => .error .notUnicode

/-- A flag is written in one way only. -/
def flagOf (name : String) : String → Except ConfigError Bool
  | "true" => .ok true
  | "false" => .ok false
  | value => .error (.badFlag name value)

/-- The configuration in the environment. -/
def ofEnvironment (env : Environment) : Except ConfigError Config := do
  let default : Config := {}
  let identifierColumn ← variableOr env "SQLTREE_IDENTIFIER_COLUMN" default.identifierColumn
  let referencePrefix ← variableOr env "SQLTREE_REFERENCE_COLUMN_PREFIX" default.referencePrefix
  let flag ← variableOr env "SQLTREE_CACHE_ENABLED" "true"
  let cacheEnabled ← flagOf "SQLTREE_CACHE_ENABLED" flag
  validated ⟨identifierColumn, referencePrefix, cacheEnabled⟩

def toJson (c : Config) : Json.Value :=
  .object [("identifier_column", .string c.identifierColumn),
    ("reference_column_prefix", .string c.referencePrefix), ("cache_enabled", .bool c.cacheEnabled)]

end Config

end TreeQuery
