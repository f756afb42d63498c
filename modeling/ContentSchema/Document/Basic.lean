import ContentSchema.Document.Field
import ContentSchema.Document.Kind
import ContentSchema.Json.Writer
import ContentSchema.Text.Cut

/-!
# Schema documents

A document is one unit of authorship: a qualified name `vendor/package`, a kind
of content, the table it targets, a policy for generated identifiers, settings
of the table and a tree of fields.
-/

namespace ContentSchema

/-- The two parts of a qualified name: neither is empty and the second has no
slash. -/
def splitQualifiedName? (name : String) : Option (String × String) :=
  match Text.cut '/' name with
  | some (vendor, package) =>
      if vendor.isEmpty || package.isEmpty || package.toList.contains '/' then none
      else some (vendor, package)
  | none => none

/-- A unit of authorship. -/
structure SchemaDocument where
  /-- The qualified name, vendor and package. -/
  name : String
  kind : ContentKind := .contentElement
  table : Option String := none
  /-- The discriminator column. -/
  typeField : Option String := none
  /-- The discriminator value. -/
  typeName : Option String := none
  title : Option String := none
  description : Option String := none
  prefixFields : Bool := true
  prefixStyle : PrefixStyle := .full
  /-- Stands for the vendor in generated identifiers. -/
  vendorPrefix : Option String := none
  priority : Int := 0
  group : Option String := none
  icon : Option String := none
  languageFile : Option String := none
  hostExtension : Option String := none
  fields : List FieldNode := []
  settings : TableSettings := {}

namespace SchemaDocument

/-- The two parts of the name. -/
def vendorAndPackage? (document : SchemaDocument) : Option (String × String) :=
  splitQualifiedName? document.name

/-- The package, or the whole name if it has no slash. -/
def displayName (document : SchemaDocument) : String :=
  match Text.cut '/' document.name with
  | some (_, package) => package
  | none => document.name

/-- The table that the document targets: the authored one, else that of its kind. -/
def tableName (document : SchemaDocument) : Option String :=
  document.table <|> document.kind.defaultTable

/-- The discriminator column: the authored one, else that of the kind. -/
def typeFieldName (document : SchemaDocument) : Option String :=
  document.typeField <|> document.kind.defaultTypeField

/-- The language file under which all labels of the document are found. -/
def languageFileReference (document : SchemaDocument) : String :=
  match document.languageFile with
  | some file => file
  | none =>
      let extension := document.hostExtension.getD (Text.underscored document.name)
      "LLL:EXT:" ++ extension ++ "/ContentBlocks/" ++ document.kind.directoryName ++ "/"
        ++ document.displayName ++ "/language/labels.xlf"

/-- The document with one more field. -/
def addField (document : SchemaDocument) (node : FieldNode) : SchemaDocument :=
  { document with fields := document.fields ++ [node] }

/-! ## Written form -/

/-- The named attributes of a written document, table settings apart. -/
def fieldNames : List String :=
  ["name", "kind", "table", "typeField", "typeName", "title", "description", "prefixFields",
    "prefixType", "vendorPrefix", "priority", "group", "icon", "languageFile", "hostExtension",
    "fields"]

/-- The written form of a document. -/
def encode (document : SchemaDocument) : Value :=
  .object
    ([("name", .string document.name), ("kind", .string document.kind.word)]
      ++ Value.textEntry? "table" document.table
      ++ Value.textEntry? "typeField" document.typeField
      ++ Value.textEntry? "typeName" document.typeName
      ++ Value.textEntry? "title" document.title
      ++ Value.textEntry? "description" document.description
      ++ [("prefixFields", .bool document.prefixFields),
          ("prefixType", .string document.prefixStyle.word)]
      ++ Value.textEntry? "vendorPrefix" document.vendorPrefix
      ++ [("priority", .int document.priority)]
      ++ Value.textEntry? "group" document.group
      ++ Value.textEntry? "icon" document.icon
      ++ Value.textEntry? "languageFile" document.languageFile
      ++ Value.textEntry? "hostExtension" document.hostExtension
      ++ [("fields", .list (FieldNode.encodeAll document.fields))]
      ++ document.settings.encodeEntries)

/-- The discriminator value that a value stands for: a text itself, nothing for
null, and anything else its compact JSON text. -/
def typeNameOf : Value → Option String
  | .null => none
  | .string s => some s
  | value => some (Json.compact value)

/-- Read a document.  Entries that are neither attributes nor settings are
passed over, but the types of their parts have to settle. -/
def decode (d : Datum) : Except DecodeError SchemaDocument := do
  let (found, others) ← Datum.splitKnown fieldNames (← d.entries)
  let slots : Datum.Slots := { found }
  let others ← others.mapM fun (name, d) =>
    Datum.expect "any value" (fun d => d.typed?.map fun d => (name, d)) d
  return {
    name := ← slots.required "name" Datum.text
    kind := ← slots.withDefault "kind" .contentElement ContentKind.decode
    table := ← slots.optional "table" Datum.text
    typeField := ← slots.optional "typeField" Datum.text
    typeName := (← slots.optional "typeName" Datum.value).bind typeNameOf
    title := ← slots.optional "title" Datum.text
    description := ← slots.optional "description" Datum.text
    prefixFields := ← slots.withDefault "prefixFields" true Datum.bool
    prefixStyle := ← slots.withDefault "prefixType" .full PrefixStyle.decode
    vendorPrefix := ← slots.optional "vendorPrefix" Datum.text
    priority := ← slots.withDefault "priority" 0 Datum.int32
    group := ← slots.optional "group" Datum.text
    icon := ← slots.optional "icon" Datum.text
    languageFile := ← slots.optional "languageFile" Datum.text
    hostExtension := ← slots.optional "hostExtension" Datum.text
    fields := ← slots.withDefault "fields" [] FieldNode.decodeList
    settings := ← TableSettings.decodeEntries others }

end SchemaDocument

end ContentSchema
