import TreeQuery.Json.Markup
import TreeQuery.Schema

/-!
# Schema documents

A schema is a map from entity names to records with the fields `attributes`, `identifier`,
`references` and `cte`, of which the first and the third may be left out; a reference has the
fields `local` and `foreign`. Other fields are ignored.
-/

namespace TreeQuery

open Markup

section
variable {δ : Type} [Markup δ]

def Reference.ofMarkup? (d : δ) : Option Reference := do
  let field ← fields? ["local", "foreign"] d
  let localColumns ← field "local" >>= texts?
  let foreignColumns ← field "foreign" >>= texts?
  return ⟨localColumns, foreignColumns⟩

def Entity.ofMarkup? (d : δ) : Option Entity := do
  let field ← fields? ["attributes", "identifier", "references", "cte"] d
  let attributes ← (field "attributes").elim (some []) texts?
  let identifier ← field "identifier" >>= texts?
  let references ← (field "references").elim (some .empty) (map? Reference.ofMarkup?)
  let cte ← field "cte" >>= text?
  return ⟨.ofList attributes, identifier, references, cte⟩

def Schema.ofMarkup? (d : δ) : Option Schema := do
  return ⟨← map? Entity.ofMarkup? d⟩

end

open Json (Value)

def Reference.toJson (r : Reference) : Value :=
  .object [("local", .strings r.localColumns), ("foreign", .strings r.foreignColumns)]

def Entity.toJson (e : Entity) : Value :=
  .object [("attributes", .strings e.attributes.toList), ("identifier", .strings e.identifier),
    ("references", .object (e.references.entries.map fun (name, r) => (name, r.toJson))),
    ("cte", .string e.cte)]

def Schema.toJson (s : Schema) : Value :=
  .object (s.entities.entries.map fun (name, e) => (name, e.toJson))

end TreeQuery
