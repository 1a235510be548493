import TreeQuery.Proofs.JsonCodecs
import TreeQuery.Proofs.JsonRecords
import TreeQuery.Schema.Load
import TreeQuery.Tree

/-!
# Schemas written and read

A schema holds nothing but names, lists and maps of names, so its text says all of it.

* `Schema.all_toJson`, `Schema.nesting_toJson`: what the document of a schema is made of;
* `Schema.ofMarkup?_toJson`: the document is read as the schema;
* `Schema.schema_comes_back`: a schema comes back through any codec that keeps strings and order.
-/

namespace TreeQuery

open Json

theorem Entity.toJson_eq (e : Entity) :
    e.toJson = .object [("attributes", .strings e.attributes.toList),
      ("identifier", .strings e.identifier),
      ("references", .object (e.references.entries.map fun r => (r.1, r.2.toJson))),
      ("cte", .string e.cte)] := rfl

theorem Schema.toJson_eq (s : Schema) :
    s.toJson = .object (s.entities.entries.map fun e => (e.1, e.2.toJson)) := rfl

/-! ## The document -/

section

variable {p : Value → Prop}

theorem Reference.all_toJson (h : ∀ s, p (.string s)) (r : Reference) : r.toJson.All p :=
  ⟨all_strings h _, all_strings h _, trivial⟩

theorem Entity.all_toJson (h : ∀ s, p (.string s)) (e : Entity) : e.toJson.All p :=
  ⟨all_strings h _, all_strings h _, all_object_map fun r _ => r.2.all_toJson h, h e.cte, trivial⟩

/-- The document of a schema is made of strings. -/
theorem Schema.all_toJson (h : ∀ s, p (.string s)) (s : Schema) : s.toJson.All p := by
  rw [toJson_eq]
  exact all_object_map fun e _ => e.2.all_toJson h

end

theorem Reference.nesting_toJson (r : Reference) : r.toJson.nesting ≤ 2 := by
  have hlocal := nesting_strings r.localColumns
  have hforeign := nesting_strings r.foreignColumns
  simp only [toJson, Value.nesting, nestingMembers]
  omega

theorem Entity.nesting_toJson (e : Entity) : e.toJson.nesting ≤ 4 := by
  have hattributes := nesting_strings e.attributes.toList
  have hidentifier := nesting_strings e.identifier
  have hreferences :
      (Value.object (e.references.entries.map fun r => (r.1, r.2.toJson))).nesting ≤ 3 :=
    nesting_object_map fun r _ => r.2.nesting_toJson
  have hcte : (Value.string e.cte).nesting = 0 := rfl
  rw [toJson_eq, Value.nesting]
  simp only [nestingMembers]
  omega

theorem Schema.nesting_toJson (s : Schema) : s.toJson.nesting ≤ 5 := by
  rw [toJson_eq]
  exact nesting_object_map fun e _ => e.2.nesting_toJson

/-! ## Reading -/

theorem Reference.ofMarkup?_toJson (r : Reference) : Reference.ofMarkup? r.toJson = some r := by
  simp [ofMarkup?, toJson, Markup.fields?, Markup.namedFields?, Markup.entries?, texts?_strings]

theorem Entity.ofMarkup?_toJson (e : Entity) : Entity.ofMarkup? e.toJson = some e := by
  have hreferences := map?_object Reference.toJson e.references fun r _ => r.2.ofMarkup?_toJson
  rw [toJson_eq]
  simp [ofMarkup?, Markup.fields?, Markup.namedFields?, Markup.entries?, Markup.text?,
    texts?_strings, hreferences, OrderedSet.ofList_toList]

theorem Schema.ofMarkup?_toJson (s : Schema) : Schema.ofMarkup? s.toJson = some s := by
  rw [ofMarkup?, toJson_eq, map?_object Entity.toJson s.entities fun e _ => e.2.ofMarkup?_toJson]
  rfl

/-- **A schema comes back from its text**, through every codec that keeps strings and the order of
what it writes. Its entities, their attributes, key columns and references, and the columns of each
reference come back in their order, whatever the names are and whether or not the schema forms a
tree; so what is made of the schema, or said against it, is the same before and after. -/
theorem Schema.schema_comes_back {json : Codec} (order : json.KeepsOrder)
    (strings : json.KeepsStrings) (s : Schema) :
    Schema.ofJson (json.write s.toJson) json = .ok s ∧
      (Schema.ofJson (json.write s.toJson) json).map Tree.ofSchema = .ok (Tree.ofSchema s) := by
  have nested : s.toJson.nesting ≤ nestingLimit := Nat.le_trans s.nesting_toJson (by decide)
  have kept : json.Keeps s.toJson := order.keeps strings s.toJson nested (s.all_toJson strings)
  have hread : Schema.ofJson (json.write s.toJson) json = .ok s := by
    rw [ofJson, kept.value?, Option.bind_some, s.ofMarkup?_toJson]
  refine ⟨hread, ?_⟩
  rw [hread]
  rfl

/-- Names and texts that need escapes, lists that are empty, columns that stand twice, and two
entities that refer to each other. -/
def Schema.tangled : Schema where
  entities := .ofList [
    ("b \"\\", ⟨.ofList ["z", "\x01", "a"], [], .ofList [("", ⟨["k", "k"], []⟩)], "SELECT\n'é'"⟩),
    ("", ⟨.empty, ["id", "id"], .ofList [("b \"\\", ⟨["\t"], ["/"]⟩)], ""⟩)]

theorem Schema.tangled_comes_back :
    Codec.standard.KeepsOrder ∧ Codec.standard.KeepsStrings ∧
      Schema.ofJson tangled.toJson.compact = .ok tangled ∧
      (Schema.ofJson tangled.toJson.compact).map Tree.ofSchema = .ok (Tree.ofSchema tangled) :=
  ⟨Codec.standard_keepsOrder, Codec.standard_keepsStrings,
    schema_comes_back Codec.standard_keepsOrder Codec.standard_keepsStrings tangled⟩

end TreeQuery
