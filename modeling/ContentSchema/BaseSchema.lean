import ContentSchema.Catalog.Basic
import ContentSchema.Entries

/-!
# Existing columns

What is known of columns that tables have before any document is compiled.  The
compiler decides by this table alone whether a column exists.
-/

namespace ContentSchema

/-- The existing columns of each table with their types. -/
structure BaseSchema where
  tables : Entries (Entries TypeDescriptor) := []

namespace BaseSchema

/-- No table has any column. -/
def empty : BaseSchema := {}

/-- Describe a column. -/
def insert (schema : BaseSchema) (table column : String) (type : TypeDescriptor) : BaseSchema :=
  ⟨Entries.update table (fun columns => Entries.insert column type (columns.getD []))
    schema.tables⟩

/-- The described columns of a table in order. -/
def columns (schema : BaseSchema) (table : String) : Entries TypeDescriptor :=
  (schema.tables.lookup table).getD []

/-- The type of a column, if it is described. -/
def get? (schema : BaseSchema) (table column : String) : Option TypeDescriptor :=
  (schema.columns table).lookup column

/-- Whether a column is described. -/
def has (schema : BaseSchema) (table column : String) : Bool :=
  (schema.get? table column).isSome

/-- The number of tables with a described column. -/
def tableCount (schema : BaseSchema) : Nat :=
  schema.tables.length

/-- The columns of the host tables that fields commonly bind to. -/
def hostColumns : List (String × String × String) :=
  [ ("tt_content", "CType", "Select"),
    ("tt_content", "header", "Text"),
    ("tt_content", "header_layout", "Select"),
    ("tt_content", "subheader", "Text"),
    ("tt_content", "bodytext", "Textarea"),
    ("tt_content", "image", "File"),
    ("tt_content", "assets", "File"),
    ("tt_content", "pi_flexform", "FlexForm"),
    ("tt_content", "categories", "Category"),
    ("pages", "doktype", "Select"),
    ("pages", "title", "Text"),
    ("pages", "slug", "Slug"),
    ("pages", "nav_title", "Text"),
    ("pages", "subtitle", "Text"),
    ("pages", "media", "File"),
    ("pages", "categories", "Category"),
    ("sys_file_reference", "type", "Select"),
    ("sys_file_reference", "title", "Text"),
    ("sys_file_reference", "alternative", "Text"),
    ("sys_file_reference", "description", "Textarea"),
    ("sys_file_reference", "link", "Link") ]

/-- The host columns whose types the catalog knows. -/
def hostDefaults (catalog : Catalog) : BaseSchema :=
  hostColumns.foldl
    (fun schema (table, column, typeName) =>
      match catalog.find? typeName with
      | some type => schema.insert table column type
      | none => schema)
    empty

end BaseSchema
end ContentSchema
