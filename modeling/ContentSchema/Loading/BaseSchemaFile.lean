import ContentSchema.BaseSchema
import ContentSchema.Loading.Error
import ContentSchema.Yaml.Reader

/-!
# Descriptions of existing columns

A file may describe columns that tables have already: for each table, its
columns with the names of their types.  The described columns are added to those
of the host tables; a column that is described again takes its new type.
-/

namespace ContentSchema

/-- The columns of tables with the names of their types. -/
abbrev ColumnTypes := Entries (Entries String)

namespace ColumnTypes

/-- Read a description of columns. -/
def decode (d : Datum) : Except DecodeError ColumnTypes :=
  d.mapOf (Datum.mapOf Datum.text)

/-- The described columns one by one. -/
def columns (types : ColumnTypes) : List (String × String × String) :=
  types.flatMap fun (table, columns) =>
    columns.map fun (column, typeName) => (table, column, typeName)

end ColumnTypes

namespace BaseSchema

/-- Add a column whose type is given by name. -/
def insertNamed (catalog : Catalog) (schema : BaseSchema) (table column typeName : String) :
    Except LoadError BaseSchema :=
  match catalog.find? typeName with
  | some type => .ok (schema.insert table column type)
  | none => .error (.unknownColumnType table column typeName)

/-- Add the described columns in order, up to the first that has an unknown
type. -/
def extend (catalog : Catalog) (schema : BaseSchema) (types : ColumnTypes) :
    Except LoadError BaseSchema :=
  types.columns.foldlM
    (fun schema (table, column, typeName) => schema.insertNamed catalog table column typeName)
    schema

/-- The columns that a YAML text describes, added to a schema.  The path is where
the text is from. -/
def extendByText (catalog : Catalog) (schema : BaseSchema) (path text : String) :
    Except LoadError BaseSchema := do
  let types ← (Yaml.readAs ColumnTypes.decode text).mapError (LoadError.yaml path)
  schema.extend catalog types

/-- The columns that a YAML text describes, and no others. -/
def ofText (catalog : Catalog) (text : String) : Except LoadError BaseSchema :=
  empty.extendByText catalog "<inline>" text

/-- The columns that a file describes, on top of the host columns. -/
def load {m : Type → Type} [Monad m] [Files m] (catalog : Catalog) (path : String) :
    Load m BaseSchema := do
  let text ← Load.text path
  Load.ofExcept ((hostDefaults catalog).extendByText catalog path text)

end BaseSchema

end ContentSchema
