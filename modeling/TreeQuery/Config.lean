/-!
# Configuration

The names of the columns that a statement adds to the requested attributes, and whether compiled
filters are remembered.
-/

namespace TreeQuery

structure Config where
  /-- The column under which a statement gives the identifier of a row. -/
  identifierColumn : String := "__ID__"
  /-- What stands before an entity's name in the column that refers to it. -/
  referencePrefix : String := "__REF__"
  cacheEnabled : Bool := true
  deriving DecidableEq

/-- The column that refers to an entity. -/
def Config.referenceColumn (c : Config) (entity : String) : String := c.referencePrefix ++ entity

end TreeQuery
