/-
**The compiled schema.**

A schema holds all that is needed to create the database of an application, in the order of
creation, and the diagnostics of what was left out.

## Compiling

1. The objects are classified, and their names and keys checked.
2. The connections are stored, and the names of the resulting tables checked.
3. The formulas are compiled, the views put in order, and the catalog is written.

A check that fails fails the whole application. Whatever else fails is one part of it, which is left
out. Strict settings stop where a step has left out some part with an error.
-/

import AppSchema.Application.Classify
import AppSchema.Catalog
import AppSchema.Storage.Check
import AppSchema.View.Order

namespace AppSchema

/-- A compiled application. -/
structure Schema where
  /-- The schema of tables and views. -/
  dataSchema : String
  /-- The schema of the catalog. -/
  metadataSchema : String
  tables : List Table
  foreignKeys : List ForeignKey
  /-- The views, each behind those that it reads. -/
  views : List View
  catalog : List CatalogEntry
  diagnostics : List Diagnostic
  deriving Inhabited

namespace Schema

/-- The table of a name. -/
def table? (schema : Schema) (name : String) : Option Table :=
  schema.tables.find? (·.name == name)

/-- The view of a name. -/
def view? (schema : Schema) (name : String) : Option View :=
  schema.views.find? (·.name == name)

/-- The associations. -/
def associations (schema : Schema) : List Table :=
  schema.tables.filter (·.isAssociation)

end Schema

/-- How an application is compiled. -/
structure Settings where
  dataSchema : String := "public"
  metadataSchema : String := "__meta__"
  /-- If given, the keys of the only objects that are compiled. -/
  objects : Option (List String) := none
  /-- Whether the first part that fails ends the compilation. -/
  strict : Bool := true
  deriving DecidableEq, Repr, Inhabited

namespace Settings

/-- Names the schema of tables and views. -/
def setDataSchema (settings : Settings) (label : String) : Settings :=
  { settings with dataSchema := Ident.sanitize label }

/-- Names the schema of the catalog. -/
def setMetadataSchema (settings : Settings) (label : String) : Settings :=
  { settings with metadataSchema := Ident.sanitize label }

/-- Compiles only the objects of some keys. -/
def setObjects (settings : Settings) (keys : List String) : Settings :=
  { settings with objects := some keys }

/-- Chooses what happens where a part fails. -/
def setStrict (settings : Settings) (strict : Bool) : Settings :=
  { settings with strict }

/-- Whether an object is compiled. -/
def includes (settings : Settings) (object : ObjectSource) : Bool :=
  settings.objects.all (·.contains object.key)

/-- A check on the whole application. -/
def require {α : Type} (check : Except Fault α) : Except Error α :=
  check.mapError Error.ofFault

/-- The layout of an application, if it passes all checks, and what was left out of it. -/
def layout (settings : Settings) (metadata : Metadata) :
    Except Error (Layout × List Diagnostic) := do
  let (application, unclassified) :=
    Application.ofSources (metadata.objects.filter settings.includes)
  Diagnostic.settle settings.strict unclassified
  require application.checkNames
  let index ← require (Index.ofApplication application)
  let (layout, unstored) := Layout.ofApplication application index settings.dataSchema
  Diagnostic.settle settings.strict unstored
  require layout.checkTables
  require layout.checkRelationNames
  require layout.checkLengths
  return (layout, unclassified ++ unstored)

/-- Compiles an application. -/
def build (settings : Settings) (metadata : Metadata) : Except Error Schema := do
  let (layout, left) ← settings.layout metadata
  let (formulas, uncompiled) := Formula.compileAll layout
  Diagnostic.settle settings.strict uncompiled
  let views ← require (View.order (View.ofLayout layout formulas))
  return {
    dataSchema := settings.dataSchema
    metadataSchema := settings.metadataSchema
    tables := layout.tables
    foreignKeys := layout.foreignKeys
    views
    catalog := CatalogEntry.ofLayout layout formulas
    diagnostics := left ++ uncompiled }

end Settings

end AppSchema
