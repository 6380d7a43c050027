/-
**How connections are stored.**

A connection with one record on some side is a column of ids on one of the two tables. A connection
with many records on both sides is kept in a table of its own that associates the two.
-/

import AppSchema.Storage.Column

namespace AppSchema

/-- How a connection is stored. -/
inductive Relation
  /-- A column of `holder` has the ids of `referenced`: one each, or an array of them. -/
  | single (holder : TableId) (column : String) (referenced : TableId) (array : Bool)
  /-- A table has the ids of both sides. -/
  | manyToMany (association host target : TableId) (hostColumn targetColumn : String)
  deriving DecidableEq, Repr, Inhabited

namespace Relation

/-- Whether a table associates both sides. -/
def isManyToMany : Relation → Bool
  | manyToMany .. => true
  | single .. => false

/-- The two tables of a relation; for a column, its holder first. -/
def sides : Relation → TableId × TableId
  | single holder _ referenced _ => (holder, referenced)
  | manyToMany _ host target _ _ => (host, target)

/-- The table on the other side. -/
def other? (relation : Relation) (table : TableId) : Option TableId :=
  if relation.sides.1 = table then some relation.sides.2
  else if relation.sides.2 = table then some relation.sides.1
  else none

end Relation

end AppSchema
