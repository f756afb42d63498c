import ContentSchema.Compiler.Condition
import ContentSchema.Compiler.Pass
import ContentSchema.Text.LowerCase

/-!
# Closing a pass

Once all nodes of a pass are compiled, its table is put together: fields and
palettes under their final identifiers, settings and display conditions with
authored identifiers resolved against the whole pass.
-/

namespace ContentSchema
namespace Pass

/-- The fields of compiled nodes in order. -/
def compiledFields (items : List PassItem) : List CompiledField :=
  items.flatMap PassItem.fields

/-- The final identifier of each authored one. -/
def identifierMap (items : List PassItem) : Entries String :=
  Entries.ofList
    ((compiledFields items).map fun field => (field.identifier, field.uniqueIdentifier))

/-- The final identifier of an authored one, or itself if no field of the pass
has it. -/
def resolveIdentifier (names : Entries String) (identifier : String) : String :=
  (names.lookup identifier).getD identifier

/-- The direction that an authored one spells. -/
def sortOrder? : Option String → Option SortOrder
  | none => some .ascending
  | some order =>
      let order := Text.lowerAscii order
      if order = "asc" then some .ascending
      else if order = "desc" then some .descending
      else none

/-- A sorting column with its direction, resolved. -/
def sortColumn (context : PassContext) (names : Entries String) (entry : SortEntry) :
    Except CompileError SortColumn :=
  match sortOrder? entry.order with
  | some order => .ok ⟨resolveIdentifier names entry.identifier, order⟩
  | none =>
      .error (context.fault (.invalidSortOrder entry.identifier (entry.order.getD "")))

/-- A field with its display condition resolved. -/
def resolveCondition (names : Entries String) (field : CompiledField) : CompiledField :=
  { field with displayCond := field.displayCond.map (Condition.rename names) }

/-- The table of a pass. -/
def tableOf (context : PassContext) (items : List PassItem) :
    Except CompileError TableDefinition := do
  let names := identifierMap items
  let settings := context.settings
  let sortFields ← match settings.sortField with
    | some setting => setting.entries.mapM (sortColumn context names)
    | none => pure []
  let labelField := match settings.labelField with
    | some labels => labels.identifiers.map (resolveIdentifier names)
    | none => []
  return {
    table := context.table
    isRootTable := context.isRootTable
    typeField := context.typeField
    fields := Entries.mapValues (resolveCondition names)
      (Entries.ofList
        ((compiledFields items).map fun field => (field.uniqueIdentifier, field)))
    palettes := Entries.ofList
      ((items.filterMap PassItem.palette?).map fun palette => (palette.identifier, palette))
    aggregateRoot := settings.aggregateRoot
    labelField
    fallbackLabelFields := settings.fallbackLabelFields.map (resolveIdentifier names)
    sortFields
    rootLevelType := settings.rootLevelType
    appendLabel := settings.appendLabel
    capabilities := settings.capabilities }

/-- The fields of a table that a content type overrides: all but the
discriminator. -/
def overrideColumns (context : PassContext) (table : TableDefinition) : List CompiledField :=
  (Entries.values table.fields).filter fun field =>
    some field.uniqueIdentifier ≠ context.typeField

/-- The finished pass. -/
def close (context : PassContext) (path : LanguagePath) (nodes : List FieldNode)
    (contentType : ContentType) (items : List PassItem) : Except CompileError Pass := do
  let table ← tableOf context items
  return {
    context, path, nodes, items, table
    contentType := { contentType with
      showItems := items.map PassItem.showItem
      overrideColumns := overrideColumns context table } }

end Pass
end ContentSchema
