import TreeQuery.FileFault
import TreeQuery.Json.Codec
import TreeQuery.Schema.Document
import TreeQuery.Yaml.Shape

/-!
# Loading a schema

A schema file is read as JSON if its name ends so, in any letter case, and as YAML otherwise.
-/

namespace TreeQuery

/-- Why there is no schema. -/
inductive SchemaLoadError
  | unread (path : String) (fault : FileFault)
  | unparsable
  deriving DecidableEq

def SchemaLoadError.message : SchemaLoadError → String
  | .unread path fault => s!"Failed to read schema file: {path}: {fault.message}"
  | .unparsable => "Failed to parse schema"

/-- The part of a path behind its last slash. -/
def fileName (path : String) : List Char :=
  (path.toList.reverse.takeWhile (· ≠ '/')).reverse

/-- The characters behind the last point of a file name. A point in front does not begin an
extension. -/
def extension? (path : String) : Option (List Char) :=
  let name := (fileName path).reverse
  match name.dropWhile (· ≠ '.') with
  | '.' :: _ :: _ => some (name.takeWhile (· ≠ '.')).reverse
  | _ => none

/-- Whether a path names a JSON file. -/
def isJsonPath (path : String) : Bool :=
  (extension? path).any fun letters => letters.map Char.toLower = ['j', 's', 'o', 'n']

namespace Schema

def ofJson (text : String) (json : Json.Codec := .standard) : Except SchemaLoadError Schema :=
  match (json.value? text).bind ofMarkup? with
  | some schema => .ok schema
  | none => .error .unparsable

/-- What is read of a schema document. -/
def shape : Yaml.Shape :=
  .map (.record [
    ("attributes", .list .text),
    ("identifier", .list .text),
    ("references", .map (.record [("local", .list .text), ("foreign", .list .text)])),
    ("cte", .text)])

def ofYaml (text : String) : Except SchemaLoadError Schema :=
  match (Yaml.Place.readAs? shape text).bind ofMarkup? with
  | some schema => .ok schema
  | none => .error .unparsable

/-- The schema in the file of a path. -/
def load (path : String) (files : Files) (json : Json.Codec := .standard) :
    Except SchemaLoadError Schema :=
  match files path with
  | .error fault => .error (.unread path fault)
  | .ok text => if isJsonPath path then ofJson text json else ofYaml text

end Schema

end TreeQuery
