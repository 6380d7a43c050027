/-
**The catalog of columns.**

The catalog describes every column that is generated, for those who read the database without the
metadata: table by table the stored columns, and behind those of an entity its formulas.
-/

import AppSchema.Formula.Compile

namespace AppSchema

/-- The description of a column. -/
structure CatalogEntry where
  tableName : String
  /-- The view that shows the column. Associations have none. -/
  viewName : Option String
  columnName : String
  dataType : String
  /-- The type of the field, or what kind of column of ids it is. -/
  inputType : String
  isPrimaryKey : Bool
  /-- Whether only the view has the column. -/
  isFormula : Bool
  isConnection : Bool
  /-- Whether the column is generated and not entered. -/
  readOnly : Bool
  options : Option (List String)
  deriving DecidableEq, Repr, Inhabited

namespace CatalogEntry

/-- The entry of the column at a position of a table. -/
def ofColumn (layout : Layout) (table : Table) (column : Column) (position : Nat) :
    CatalogEntry :=
  let field := column.field.map layout.field
  let stored := field.bind (·.kind.stored?)
  let isPrimaryKey := column.primaryKey || table.primaryKey.contains position
  { tableName := table.name
    viewName := if table.isAssociation then none else some (layout.entity table.id).viewName
    columnName := column.name
    dataType := column.type.sql
    inputType :=
      match stored, field with
      | some stored, _ => stored.inputType
      | none, some _ => "connection"
      | none, none => "association"
    isPrimaryKey
    isFormula := false
    isConnection := stored.isNone
    readOnly := isPrimaryKey || field.any (·.synthetic)
    options := stored.bind (·.options) }

/-- The type of field that a formula is in the metadata. -/
def formulaInput : FieldKind → String
  | .aggregate aggregate => aggregate.method.sourceType
  | _ => "concatenation"

/-- The entry of a formula field. -/
def ofFormula (layout : Layout) (table : Table) (field : Field) : CatalogEntry :=
  { tableName := table.name
    viewName := some (layout.entity table.id).viewName
    columnName := field.name.ident
    dataType := (field.kind.formulaType?.map ColumnType.sql).getD ""
    inputType := formulaInput field.kind
    isPrimaryKey := false
    isFormula := true
    isConnection := false
    readOnly := true
    options := none }

/-- The entries of the columns of a table. -/
def ofColumns (layout : Layout) (table : Table) : List CatalogEntry :=
  table.columns.zipIdx.map fun column => ofColumn layout table column.1 column.2

/-- The entries of those formulas of a table that were compiled. -/
def ofFormulas (layout : Layout) (formulas : List CompiledFormula) (table : Table) :
    List CatalogEntry :=
  if table.isAssociation then []
  else
    ((layout.entity table.id).formulaFields.filter fun field =>
      formulas.any (·.field == field.id)).map (ofFormula layout table)

/-- The entries of all tables. -/
def ofLayout (layout : Layout) (formulas : List CompiledFormula) : List CatalogEntry :=
  layout.tables.flatMap fun table =>
    ofColumns layout table ++ ofFormulas layout formulas table

end CatalogEntry

end AppSchema
