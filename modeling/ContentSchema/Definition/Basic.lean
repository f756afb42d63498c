import ContentSchema.Catalog.Basic
import ContentSchema.Document.Kind
import ContentSchema.Document.Settings

/-!
# Compiled definitions

The normalized output of a compilation: for each table its fields and palettes
under their final identifiers, and the content types that show them.
-/

namespace ContentSchema

/-- One entry of the display order of a content type. -/
inductive ShowItem where
  | field (identifier : String)
  | palette (identifier : String)
  | tab (identifier : String)
  | linebreak
deriving DecidableEq, Repr

/-- The notation of a display entry. -/
def ShowItem.render : ShowItem → String
  | .field identifier => identifier
  | .palette identifier => "--palette--;;" ++ identifier
  | .tab identifier => "--div--;" ++ identifier
  | .linebreak => "--linebreak--"

/-- One entry of a palette. -/
inductive PaletteItem where
  | field (identifier : String)
  | linebreak
deriving DecidableEq, Repr

/-- The notation of a palette entry. -/
def PaletteItem.render : PaletteItem → String
  | .field identifier => identifier
  | .linebreak => "--linebreak--"

/-- The field that a palette entry shows. -/
def PaletteItem.field? : PaletteItem → Option String
  | .field identifier => some identifier
  | .linebreak => none

/-- A group of fields that are shown together. -/
structure PaletteDefinition where
  identifier : String
  label : Option String := none
  description : Option String := none
  labelPath : String
  descriptionPath : Option String := none
  items : List PaletteItem
deriving DecidableEq, Repr

namespace PaletteDefinition

/-- The fields of the palette in display order. -/
def fieldIdentifiers (palette : PaletteDefinition) : List String :=
  palette.items.filterMap PaletteItem.field?

/-- The notation of the palette. -/
def showItem (palette : PaletteDefinition) : String :=
  ",".intercalate (palette.items.map PaletteItem.render)

end PaletteDefinition

/-- A fully resolved field. -/
structure CompiledField where
  /-- The final column identifier. -/
  uniqueIdentifier : String
  /-- The identifier as authored. -/
  identifier : String
  fieldType : TypeDescriptor
  label : Option String := none
  description : Option String := none
  labelPath : String
  descriptionPath : Option String := none
  /-- Bound to an existing column, for which no storage is generated. -/
  useExistingField : Bool
  displayCond : Option Value := none
  config : Entries Value

/-- The icon of a content type. -/
structure ContentTypeIcon where
  identifier : String
  source : Option String := none
deriving DecidableEq, Repr

/-- One variant of a table, chosen by the discriminator value. -/
structure ContentType where
  /-- The name of the document, or a made up one for a collection. -/
  identifier : String
  table : String
  kind : ContentKind
  /-- The discriminator value; collections have none. -/
  typeName : Option String := none
  title : Option String := none
  description : Option String := none
  titlePath : Option String := none
  descriptionPath : Option String := none
  showItems : List ShowItem := []
  overrideColumns : List CompiledField := []
  vendor : String
  package : String
  icon : Option ContentTypeIcon := none
  priority : Int := 0
  group : Option String := none

/-- The notation of the display order. -/
def ContentType.showItemString (contentType : ContentType) : String :=
  ",".intercalate (contentType.showItems.map ShowItem.render)

/-- A sorting direction. -/
inductive SortOrder where
  | ascending
  | descending
deriving DecidableEq, Repr

namespace SortOrder

/-- The word for a direction. -/
def word : SortOrder → String
  | ascending => "asc"
  | descending => "desc"

/-- Both directions. -/
def all : List SortOrder := [ascending, descending]

end SortOrder

/-- A sorting column with its direction. -/
structure SortColumn where
  identifier : String
  order : SortOrder
deriving DecidableEq, Repr

/-- The definition of a table, in part or merged. -/
structure TableDefinition where
  table : String
  /-- Whether some document targets the table itself. -/
  isRootTable : Bool
  typeField : Option String := none
  fields : Entries CompiledField := []
  palettes : Entries PaletteDefinition := []
  aggregateRoot : Option Bool := none
  labelField : List String := []
  fallbackLabelFields : List String := []
  sortFields : List SortColumn := []
  rootLevelType : Option String := none
  appendLabel : Option Bool := none
  capabilities : Capabilities := {}
  contentTypes : List ContentType := []

namespace TableDefinition

/-- The field with the given final identifier. -/
def field? (definition : TableDefinition) (uniqueIdentifier : String) : Option CompiledField :=
  definition.fields.lookup uniqueIdentifier

/-- The content type with the given identifier. -/
def contentType? (definition : TableDefinition) (identifier : String) : Option ContentType :=
  definition.contentTypes.find? fun contentType => contentType.identifier = identifier

/-- The content types, highest priority first and otherwise in order. -/
def contentTypesByPriority (definition : TableDefinition) : List ContentType :=
  definition.contentTypes.mergeSort fun a b => b.priority ≤ a.priority

end TableDefinition

end ContentSchema
