import TreeQuery.Ordered.Map

/-!
# Reading records from markup

Schemas and configurations can be written in more than one format. What their readers need of a
format is the class `Markup`; a record is written by the names of its fields, and in some formats
also as a list of its fields in order.
-/

namespace TreeQuery

/-- A tree of data seen as what it can stand for; a tree may stand for more than one thing. -/
class Markup (δ : Type) where
  text? : δ → Option String
  flag? : δ → Option Bool
  items? : δ → Option (List δ)
  entries? : δ → Option (List (String × δ))
  /-- The fields of a record that is written without their names. -/
  bareFields? : δ → Option (List δ)

namespace Markup

variable {δ : Type} [Markup δ] {β : Type}

/-- A list of texts. -/
def texts? (d : δ) : Option (List String) := do (← items? d).mapM text?

/-- A map whose values are read one by one. A key that is written again takes the later value and
keeps its place. -/
def map? (read : δ → Option β) (d : δ) : Option (OrderedMap String β) := do
  let entries ← (← entries? d).mapM fun (key, value) => return (key, ← read value)
  return .ofList entries

/-- The fields of a record, by name. -/
abbrev Fields (δ : Type) := String → Option δ

/-- Each named field at most once; what other entries are there does not matter. -/
def namedFields? (names : List String) (entries : List (String × δ)) : Option (Fields δ) :=
  if names.any fun name => 1 < entries.countP (·.1 = name) then none
  else some fun name => (entries.find? (·.1 = name)).map (·.2)

/-- Field after field; the last ones may be missing. -/
def placedFields? (names : List String) (items : List δ) : Option (Fields δ) :=
  if names.length < items.length then none
  else some fun name => (names.zip items).lookup name

/-- The fields of a record that has the given names. -/
def fields? (names : List String) (d : δ) : Option (Fields δ) :=
  match entries? d with
  | some entries => namedFields? names entries
  | none => (bareFields? d).bind (placedFields? names)

/-- The fields of a record that has no others than those of the given names. -/
def exactFields? (names : List String) (d : δ) : Option (Fields δ) :=
  if ((entries? d).getD []).all (names.contains ·.1) then fields? names d else none

end Markup

end TreeQuery
