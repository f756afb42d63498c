import ContentSchema.Catalog.Codec
import ContentSchema.Definition.Basic

/-!
# Written form of compiled definitions

Attributes are written in a fixed order, absent ones and empty lists of settings
are left out.  A display entry is written as its kind and what it shows.
-/

namespace ContentSchema

/-! ## Display entries -/

/-- The kinds of display entries. -/
inductive ShowKind where
  | field
  | palette
  | tab
  | linebreak
deriving DecidableEq, Repr

/-- The word for a kind of display entry. -/
def ShowKind.word : ShowKind → String
  | field => "field"
  | palette => "palette"
  | tab => "tab"
  | linebreak => "linebreak"

/-- A kind with the identifier it needs.  As a list it has both parts; otherwise
a part that is not needed may be left out or null. -/
def ShowKind.decodeWith {α : Type} (kinds : List ShowKind)
    (build : ShowKind → Option String → Except DecodeError α) (d : Datum) :
    Except DecodeError α := do
  let slots ← d.slots ["kind", "identifier"]
  let kind ← slots.required "kind" (Datum.oneOf ShowKind.word kinds)
  if kind = .linebreak then do
    if slots.positional && (slots.found.lookup "identifier").isNone then
      throw (.missing "identifier")
    match ← slots.optional "identifier" Datum.value with
    | none => build kind none
    | some _ => throw (.unexpected "a value" "nothing")
  else do
    build kind (some (← slots.required "identifier" Datum.text))

/-- The written form of a kind and what it shows. -/
def ShowKind.encode (kind : ShowKind) (identifier : Option String) : Value :=
  .object (("kind", .string kind.word) :: Value.textEntry? "identifier" identifier)

namespace ShowItem

/-- The written form of a display entry. -/
def encode : ShowItem → Value
  | .field identifier => ShowKind.encode .field (some identifier)
  | .palette identifier => ShowKind.encode .palette (some identifier)
  | .tab identifier => ShowKind.encode .tab (some identifier)
  | .linebreak => ShowKind.encode .linebreak none

/-- Read a display entry. -/
def decode (d : Datum) : Except DecodeError ShowItem :=
  ShowKind.decodeWith [.field, .palette, .tab, .linebreak]
    (fun kind identifier =>
      let identifier := identifier.getD ""
      .ok (match kind with
        | .field => .field identifier
        | .palette => .palette identifier
        | .tab => .tab identifier
        | .linebreak => .linebreak))
    d

end ShowItem

namespace PaletteItem

/-- The written form of a palette entry. -/
def encode : PaletteItem → Value
  | .field identifier => ShowKind.encode .field (some identifier)
  | .linebreak => ShowKind.encode .linebreak none

/-- Read a palette entry. -/
def decode (d : Datum) : Except DecodeError PaletteItem :=
  ShowKind.decodeWith [.field, .linebreak]
    (fun _ identifier =>
      .ok (match identifier with
        | some identifier => .field identifier
        | none => .linebreak))
    d

end PaletteItem

/-! ## Palettes and fields -/

namespace PaletteDefinition

/-- The written form of a palette. -/
def encode (palette : PaletteDefinition) : Value :=
  .object
    ([("identifier", .string palette.identifier)]
      ++ Value.textEntry? "label" palette.label
      ++ Value.textEntry? "description" palette.description
      ++ [("label_path", .string palette.labelPath)]
      ++ Value.textEntry? "description_path" palette.descriptionPath
      ++ [("items", .list (palette.items.map PaletteItem.encode))])

/-- The attributes of a written palette. -/
def fieldNames : List String :=
  ["identifier", "label", "description", "label_path", "description_path", "items"]

/-- Read a palette. -/
def decode (d : Datum) : Except DecodeError PaletteDefinition := do
  let slots ← d.slots fieldNames
  return {
    identifier := ← slots.required "identifier" Datum.text
    label := ← slots.optional "label" Datum.text
    description := ← slots.optional "description" Datum.text
    labelPath := ← slots.required "label_path" Datum.text
    descriptionPath := ← slots.optional "description_path" Datum.text
    items := ← slots.required "items" (Datum.listOf PaletteItem.decode) }

end PaletteDefinition

namespace CompiledField

/-- The written form of a field. -/
def encode (field : CompiledField) : Value :=
  .object
    ([("unique_identifier", .string field.uniqueIdentifier),
      ("identifier", .string field.identifier),
      ("field_type", field.fieldType.encode)]
      ++ Value.textEntry? "label" field.label
      ++ Value.textEntry? "description" field.description
      ++ [("label_path", .string field.labelPath)]
      ++ Value.textEntry? "description_path" field.descriptionPath
      ++ [("use_existing_field", .bool field.useExistingField)]
      ++ Value.entry? "display_cond" field.displayCond
      ++ [("config", .object field.config)])

/-- The attributes of a written field. -/
def fieldNames : List String :=
  ["unique_identifier", "identifier", "field_type", "label", "description", "label_path",
    "description_path", "use_existing_field", "display_cond", "config"]

/-- Read a field. -/
def decode (d : Datum) : Except DecodeError CompiledField := do
  let slots ← d.slots fieldNames
  return {
    uniqueIdentifier := ← slots.required "unique_identifier" Datum.text
    identifier := ← slots.required "identifier" Datum.text
    fieldType := ← slots.required "field_type" TypeDescriptor.decode
    label := ← slots.optional "label" Datum.text
    description := ← slots.optional "description" Datum.text
    labelPath := ← slots.required "label_path" Datum.text
    descriptionPath := ← slots.optional "description_path" Datum.text
    useExistingField := ← slots.required "use_existing_field" Datum.bool
    displayCond := ← slots.optional "display_cond" Datum.value
    config := ← slots.required "config" (Datum.mapOf Datum.value) }

end CompiledField

/-! ## Content types -/

namespace ContentTypeIcon

/-- The written form of an icon. -/
def encode (icon : ContentTypeIcon) : Value :=
  .object (("identifier", .string icon.identifier) :: Value.textEntry? "source" icon.source)

/-- Read an icon. -/
def decode (d : Datum) : Except DecodeError ContentTypeIcon := do
  let slots ← d.slots ["identifier", "source"]
  return {
    identifier := ← slots.required "identifier" Datum.text
    source := ← slots.optional "source" Datum.text }

end ContentTypeIcon

namespace ContentType

/-- The written form of a content type. -/
def encode (contentType : ContentType) : Value :=
  .object
    ([("identifier", .string contentType.identifier),
      ("table", .string contentType.table),
      ("kind", .string contentType.kind.word)]
      ++ Value.textEntry? "type_name" contentType.typeName
      ++ Value.textEntry? "title" contentType.title
      ++ Value.textEntry? "description" contentType.description
      ++ Value.textEntry? "title_path" contentType.titlePath
      ++ Value.textEntry? "description_path" contentType.descriptionPath
      ++ [("show_items", .list (contentType.showItems.map ShowItem.encode)),
          ("override_columns", .list (contentType.overrideColumns.map CompiledField.encode)),
          ("vendor", .string contentType.vendor),
          ("package", .string contentType.package)]
      ++ Value.entry? "icon" (contentType.icon.map ContentTypeIcon.encode)
      ++ [("priority", .int contentType.priority)]
      ++ Value.textEntry? "group" contentType.group)

/-- The attributes of a written content type. -/
def fieldNames : List String :=
  ["identifier", "table", "kind", "type_name", "title", "description", "title_path",
    "description_path", "show_items", "override_columns", "vendor", "package", "icon",
    "priority", "group"]

/-- Read a content type. -/
def decode (d : Datum) : Except DecodeError ContentType := do
  let slots ← d.slots fieldNames
  return {
    identifier := ← slots.required "identifier" Datum.text
    table := ← slots.required "table" Datum.text
    kind := ← slots.required "kind" ContentKind.decode
    typeName := ← slots.optional "type_name" Datum.text
    title := ← slots.optional "title" Datum.text
    description := ← slots.optional "description" Datum.text
    titlePath := ← slots.optional "title_path" Datum.text
    descriptionPath := ← slots.optional "description_path" Datum.text
    showItems := ← slots.required "show_items" (Datum.listOf ShowItem.decode)
    overrideColumns := ← slots.required "override_columns" (Datum.listOf CompiledField.decode)
    vendor := ← slots.required "vendor" Datum.text
    package := ← slots.required "package" Datum.text
    icon := ← slots.optional "icon" ContentTypeIcon.decode
    priority := ← slots.withDefault "priority" 0 Datum.int32
    group := ← slots.optional "group" Datum.text }

end ContentType

/-! ## Tables -/

namespace Capabilities

/-- The written form of declared capabilities. -/
def encode (capabilities : Capabilities) : Value :=
  .object capabilities.encodeEntries

/-- Read declared capabilities. -/
def decode (d : Datum) : Except DecodeError Capabilities := do
  let slots ← d.slots (Capability.all.map Capability.word)
  Capability.all.foldlM
    (fun capabilities capability => do
      return capabilities.declare capability (← slots.optional capability.word Datum.bool))
    {}

end Capabilities

namespace SortColumn

/-- The written form of a sorting column. -/
def encode (column : SortColumn) : Value :=
  .object [("identifier", .string column.identifier), ("order", .string column.order.word)]

/-- Read a sorting column. -/
def decode (d : Datum) : Except DecodeError SortColumn := do
  let slots ← d.slots ["identifier", "order"]
  return {
    identifier := ← slots.required "identifier" Datum.text
    order := ← slots.required "order" (Datum.oneOf SortOrder.word SortOrder.all) }

end SortColumn

namespace TableDefinition

/-- A list of texts, left out when it is empty. -/
def textsEntry? (key : String) (texts : List String) : List (String × Value) :=
  Value.listEntry? key (texts.map Value.string)

/-- The written form of a table. -/
def encode (definition : TableDefinition) : Value :=
  .object
    ([("table", .string definition.table),
      ("is_root_table", .bool definition.isRootTable)]
      ++ Value.textEntry? "type_field" definition.typeField
      ++ [("fields", .object (Entries.mapValues CompiledField.encode definition.fields)),
          ("palettes", .object (Entries.mapValues PaletteDefinition.encode definition.palettes))]
      ++ Value.boolEntry? "aggregate_root" definition.aggregateRoot
      ++ textsEntry? "label_field" definition.labelField
      ++ textsEntry? "fallback_label_fields" definition.fallbackLabelFields
      ++ Value.listEntry? "sort_fields" (definition.sortFields.map SortColumn.encode)
      ++ Value.textEntry? "root_level_type" definition.rootLevelType
      ++ Value.boolEntry? "append_label" definition.appendLabel
      ++ [("capabilities", definition.capabilities.encode),
          ("content_types", .list (definition.contentTypes.map ContentType.encode))])

/-- The attributes of a written table. -/
def fieldNames : List String :=
  ["table", "is_root_table", "type_field", "fields", "palettes", "aggregate_root",
    "label_field", "fallback_label_fields", "sort_fields", "root_level_type", "append_label",
    "capabilities", "content_types"]

/-- Read a table. -/
def decode (d : Datum) : Except DecodeError TableDefinition := do
  let slots ← d.slots fieldNames
  return {
    table := ← slots.required "table" Datum.text
    isRootTable := ← slots.required "is_root_table" Datum.bool
    typeField := ← slots.optional "type_field" Datum.text
    fields := ← slots.required "fields" (Datum.mapOf CompiledField.decode)
    palettes := ← slots.required "palettes" (Datum.mapOf PaletteDefinition.decode)
    aggregateRoot := ← slots.optional "aggregate_root" Datum.bool
    labelField := ← slots.withDefault "label_field" [] (Datum.listOf Datum.text)
    fallbackLabelFields := ←
      slots.withDefault "fallback_label_fields" [] (Datum.listOf Datum.text)
    sortFields := ← slots.withDefault "sort_fields" [] (Datum.listOf SortColumn.decode)
    rootLevelType := ← slots.optional "root_level_type" Datum.text
    appendLabel := ← slots.optional "append_label" Datum.bool
    capabilities := ← slots.required "capabilities" Capabilities.decode
    contentTypes := ← slots.required "content_types" (Datum.listOf ContentType.decode) }

end TableDefinition

end ContentSchema
