import TreeQuery.Filter.Document
import TreeQuery.Query

/-!
# Queries in JSON

A query is a record with `select`, a map from entities to their attributes, and `filter`, which may
be missing or null. Attributes are a list of names, or a map from names to flags that keeps the
names whose flag is true. A query is read field by field: what is wrong with a filter is said even
if the text breaks off behind it.
-/

namespace TreeQuery

open Json (Value)
open Markup

namespace Query

/-- The attributes of one entity. -/
def selectionOfJson? (v : Value) : Option (OrderedSet String) :=
  match texts? v with
  | some names => some (.ofList names)
  | none => do
    let flags ← map? flag? v
    return .ofList ((flags.entries.filter (·.2)).map (·.1))

/-- The filter of a query stands one level further in than the query. -/
def filterOfJson : Value → Except ReadError (Option Filter)
  | .null => .ok none
  | v => (Filter.ofJson (Json.nestingLimit - 1) v).map some

end Query

/-- The fields of a query that have been read. -/
structure QueryFields where
  select : Option (OrderedMap String (OrderedSet String))
  filter : Option (Option Filter)

namespace QueryFields

def empty : QueryFields := ⟨none, none⟩

/-- Takes one more field, which must not have been there before; fields of other names do not
matter. -/
def take (fields : QueryFields) : String × Value → Except ReadError QueryFields
  | ("select", v) =>
    match fields.select, map? Query.selectionOfJson? v with
    | none, some select => .ok { fields with select := some select }
    | _, _ => .error .unreadable
  | ("filter", v) =>
    match fields.filter with
    | none => (Query.filterOfJson v).map fun filter => { fields with filter := some filter }
    | some _ => .error .unreadable
  | _ => .ok fields

/-- The query with the fields that have been read. -/
def query? (fields : QueryFields) : Option Query :=
  fields.select.map (⟨·, fields.filter.join⟩)

/-- The query that a text holds whose fields are read one after another, so that the first error is
the one in front. -/
def readAll (members : List (String × Value)) (isWhole : Bool) : Except ReadError Query := do
  let fields ← members.foldlM take empty
  match isWhole, fields.query? with
  | true, some query => return query
  | _, _ => .error .unreadable

end QueryFields

namespace Query

def read (text : String) (json : Json.Codec := .standard) : Except ReadError Query :=
  match json.read text with
  | some ⟨.object members, isWhole⟩ => QueryFields.readAll members isWhole
  | some ⟨.array items, isWhole⟩ =>
    QueryFields.readAll (["select", "filter"].zip items) (isWhole && items.length ≤ 2)
  | _ => .error .unreadable

def toJson (q : Query) : Value :=
  .object [("select", .object (q.select.entries.map fun (name, attributes) =>
      (name, .strings attributes.toList))),
    ("filter", (q.filter.map Filter.toJson).getD .null)]

end Query

end TreeQuery
