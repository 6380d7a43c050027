/-
**Following connections.**

A formula reads the rows of another table that are linked to a row of its own, the host's. The other
table is read through its view. Only the host itself is read as a table, since its view is just
being made; there it has an alias.

A `Link` says how a relation is followed from the host. A relation of a table to itself can be
followed both ways, unless it is an array.
-/

import AppSchema.Sql.Expr
import AppSchema.Storage.Layout

namespace AppSchema

open Sql (ColumnRef Condition Filter Rows FromItem)

namespace Layout

/-- What to read the rows of `other` from inside the view of `host`. -/
def source (layout : Layout) (host other : TableId) : FromItem :=
  if other = host then { relation := (layout.entity other).name.ident, aliasName := some "related" }
  else { relation := (layout.entity other).viewName }

end Layout

namespace Sql.FromItem

/-- Whether a source is a view. -/
def isView (source : FromItem) : Bool :=
  source.aliasName.isNone

end Sql.FromItem

/-- How the rows on the other side of a relation are linked to a row of the host. -/
inductive Link
  /-- The other table has a column of ids of the host. -/
  | inbound (column : String)
  /-- The host has a column of ids of the other table. -/
  | outbound (column : String) (array : Bool)
  /-- An association has both ids. -/
  | association (table hostColumn otherColumn : String)
  deriving DecidableEq, Repr, Inhabited

namespace Link

/-- The link of a relation, seen from the host. `outward` picks the host's own column where a table
is linked to itself. -/
def of? (layout : Layout) (relation : Relation) (host : TableId) (outward : Bool) :
    Option Link :=
  match relation with
  | .single holder column referenced array =>
    if holder = host ∧ (referenced ≠ host ∨ outward ∨ array) then some (outbound column array)
    else if referenced = host then some (inbound column)
    else none
  | .manyToMany table first second firstColumn secondColumn =>
    if first = host then
      some (association (layout.table table).name firstColumn secondColumn)
    else if second = host then
      some (association (layout.table table).name secondColumn firstColumn)
    else none

/-- The filter that picks the rows of `source` that are linked to a row of the table `host`. -/
def filter (link : Link) (source host : String) : Filter :=
  match link with
  | inbound column => .onlyIf (.equal ⟨source, column⟩ ⟨host, "id"⟩)
  | outbound column false => .onlyIf (.equal ⟨source, "id"⟩ ⟨host, column⟩)
  | outbound column true => .onlyIf (.member ⟨source, "id"⟩ ⟨host, column⟩)
  | association table hostColumn otherColumn =>
    .through table (.both (.equal ⟨table, otherColumn⟩ ⟨source, "id"⟩)
      (.equal ⟨table, hostColumn⟩ ⟨host, "id"⟩))

/-- The rows of a source that are linked to a row of the table `host`. -/
def rows (link : Link) (source : FromItem) (host : String) : Rows :=
  ⟨source, link.filter source.name host⟩

end Link

end AppSchema
