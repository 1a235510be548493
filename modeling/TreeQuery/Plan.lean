import TreeQuery.Filter.Operand
import TreeQuery.Sql.Identifier

/-!
# Statement plans

The clauses of one statement as data, and their SQL text. The clauses of a statement stand in a
row with single blanks between them; a clause without text leaves none behind.
-/

namespace TreeQuery

open Sql (Column quoteName)

/-- The equality of two columns. -/
structure JoinCondition where
  left : Column
  right : Column
  deriving DecidableEq

def JoinCondition.sql (c : JoinCondition) : String := c.left.sql ++ " = " ++ c.right.sql

/-- An entity joined under all of the conditions. -/
structure Join where
  entity : String
  conditions : List JoinCondition
  deriving DecidableEq

def Join.sql (j : Join) : String :=
  "JOIN " ++ quoteName j.entity ++ " ON " ++
    Text.separated " AND " (j.conditions.map JoinCondition.sql)

def joinsSql (joins : List Join) : String := Text.separated " " (joins.map Join.sql)

/-- The rows of an entity whose key is among those that a filter over joined entities keeps. -/
structure KeyFilter where
  entity : String
  key : List String
  joins : List Join
  predicate : String
  deriving DecidableEq

/-- The filtered entity with what is joined to it. -/
def KeyFilter.sourceSql (f : KeyFilter) : String :=
  let joins := joinsSql f.joins
  if joins = "" then quoteName f.entity else quoteName f.entity ++ " " ++ joins

def KeyFilter.sql (f : KeyFilter) : String :=
  "WHERE " ++ Sql.keyValue f.entity f.key ++ " IN (SELECT " ++ Sql.columnList f.entity f.key ++
    " FROM " ++ f.sourceSql ++ " WHERE " ++ f.predicate ++ ")"

/-- The bodies of table expressions, as they are. -/
def ctesSql (ctes : List String) : String :=
  if ctes = [] then "" else "WITH " ++ Text.separated ", " ctes

def selectSql (columns : List Column) : String :=
  "SELECT " ++ Text.separated ", " (columns.map Column.sql)

def sourceSql (entity : String) : String := "FROM " ++ quoteName entity

/-- A text with the literals that its placeholders stand for. -/
structure Statement where
  sql : String
  binds : List Literal
  deriving DecidableEq

/-- The clauses of the statement for one entity. -/
structure Plan where
  ctes : List String
  select : List Column
  entity : String
  filter : Option KeyFilter
  binds : List Literal
  deriving DecidableEq

namespace Plan

def clauses (p : Plan) : List String :=
  [ctesSql p.ctes, selectSql p.select, sourceSql p.entity] ++ (p.filter.map KeyFilter.sql).toList

def sql (p : Plan) : String := Text.separated " " (p.clauses.filter (· ≠ ""))

def statement (p : Plan) : Statement := ⟨p.sql, p.binds⟩

end Plan

end TreeQuery
