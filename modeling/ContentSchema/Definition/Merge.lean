import ContentSchema.Definition.Basic
import ContentSchema.Value.Merge

/-!
# Merging tables

Several passes may contribute to one table.  Their definitions are laid over
each other in order: the last declaration of a setting counts, fields with one
identifier merge their configurations, and palettes replace each other.  Content
types are not merged but listed one after another.
-/

namespace ContentSchema

/-- Lay a field over another with the same final identifier. -/
def CompiledField.merge (base overlay : CompiledField) : CompiledField where
  uniqueIdentifier := overlay.uniqueIdentifier
  identifier := overlay.identifier
  fieldType := overlay.fieldType
  label := overlay.label <|> base.label
  description := overlay.description <|> base.description
  labelPath := overlay.labelPath
  descriptionPath := overlay.descriptionPath <|> base.descriptionPath
  useExistingField := overlay.useExistingField
  displayCond := overlay.displayCond <|> base.displayCond
  config := Value.mergeEntries base.config overlay.config

/-- Lay fields over fields. -/
def mergeFields (base overlay : Entries CompiledField) : Entries CompiledField :=
  overlay.foldl
    (fun fields entry =>
      Entries.update entry.1
        (fun present =>
          match present with
          | some existing => existing.merge entry.2
          | none => entry.2)
        fields)
    base

/-- The later of two lists unless it is empty. -/
def laterUnlessEmpty {α : Type} (base overlay : List α) : List α :=
  if overlay.isEmpty then base else overlay

/-- Lay a definition of a table over another of the same table.  The content
types remain those of the base. -/
def TableDefinition.merge (base overlay : TableDefinition) : TableDefinition where
  table := base.table
  isRootTable := base.isRootTable || overlay.isRootTable
  typeField := overlay.typeField <|> base.typeField
  fields := mergeFields base.fields overlay.fields
  palettes := Entries.insertAll base.palettes overlay.palettes
  aggregateRoot := overlay.aggregateRoot <|> base.aggregateRoot
  labelField := laterUnlessEmpty base.labelField overlay.labelField
  fallbackLabelFields := laterUnlessEmpty base.fallbackLabelFields overlay.fallbackLabelFields
  sortFields := laterUnlessEmpty base.sortFields overlay.sortFields
  rootLevelType := overlay.rootLevelType <|> base.rootLevelType
  appendLabel := overlay.appendLabel <|> base.appendLabel
  capabilities := base.capabilities.merge overlay.capabilities
  contentTypes := base.contentTypes

/-- What was contributed to one table. -/
structure Contributions where
  /-- Definitions in part, in order. -/
  tables : List TableDefinition := []
  /-- Content types, in order. -/
  contentTypes : List ContentType := []

namespace Contributions

/-- Add what one pass contributes. -/
def contribute (contributions : Contributions) (table : TableDefinition)
    (contentType : ContentType) : Contributions where
  tables := contributions.tables ++ [table]
  contentTypes := contributions.contentTypes ++ [contentType]

/-- The merged definition, if there is anything to merge. -/
def merged? (contributions : Contributions) : Option TableDefinition :=
  match contributions.tables with
  | [] => none
  | first :: rest =>
      some { rest.foldl TableDefinition.merge first with
        contentTypes := contributions.contentTypes }

end Contributions

/-- Merge the contributions to every table.  Tables keep their order, and one
without a definition is left out. -/
def mergeTables (contributions : Entries Contributions) : Entries TableDefinition :=
  contributions.filterMap fun entry => entry.2.merged?.map fun merged => (entry.1, merged)

end ContentSchema
