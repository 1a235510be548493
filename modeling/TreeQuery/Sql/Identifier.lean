import TreeQuery.Text.Separated

/-!
# Names in SQL text

Every name is written as a double-quoted identifier with its own quotes doubled, so that a name
always ends where its text says and nothing in it is read as SQL.
-/

namespace TreeQuery.Sql

/-- A name between double quotes, with the quotes in it doubled. -/
def quoteName (name : String) : String :=
  "\"" ++ String.ofList (name.toList.flatMap fun c => if c = '"' then ['"', '"'] else [c]) ++ "\""

/-- A column of an entity. -/
structure Column where
  entity : String
  name : String
  deriving DecidableEq

/-- The entity and the column, both quoted, with a point between them. -/
def Column.sql (column : Column) : String :=
  quoteName column.entity ++ "." ++ quoteName column.name

/-- Columns of one entity with commas between them. -/
def columnList (entity : String) (names : List String) : String :=
  Text.separated ", " (names.map fun name => Column.sql ⟨entity, name⟩)

/-- A key as a value to compare: a single column stands bare, any other number in parentheses. -/
def keyValue (entity : String) (names : List String) : String :=
  if names.length = 1 then columnList entity names else "(" ++ columnList entity names ++ ")"

end TreeQuery.Sql
