import ContentSchema.Proofs.FlexForm.Positions
import ContentSchema.Proofs.Pass.Columns
import ContentSchema.Proofs.Pass.Emitted
import ContentSchema.Proofs.Pass.Sites

/-!
# Labels of a pass

The paths of the labels that a pass gives to its fields, palettes and nested forms
are told by its position and the identifiers of the nodes alone.

* `CompiledField.LabelledAt` and `PaletteDefinition.LabelledAt` state the paths of
  one field and of one palette.
* `labelledAt_compiledField` and `labelledAt_paletteOf` say that what is compiled
  has them.
* `Pass.LabelledAt` collects them for all that a pass lists.

A palette adds nothing to the position of its fields, and neither does a tab: they
are NOT steps of a way.
-/

namespace ContentSchema

/-! ## Fields and palettes -/

/-- The field is labelled as the node says, for a pass at the end of a way whose
nested forms are kept under `formKey`. -/
structure CompiledField.LabelledAt (field : CompiledField) (formKey file : String)
    (way : List String) (node : FieldNode) : Prop where
  identifier : field.identifier = node.identifierText
  label : field.label = node.label
  description : field.description = node.description
  labelPath : field.labelPath = textPath file (way ++ [node.identifierText, "label"])
  /-- A field with form presence has a path for its description if it has one. -/
  descriptionPath : field.fieldType.storage ≠ .passthrough →
    field.descriptionPath = node.description.map fun _ =>
      textPath file (way ++ [node.identifierText, "description"])
  form : field.fieldType.kind = .flexForm → ∃ form, field.config.lookup "ds" = some form ∧
    FlexForm.LabelledAt form formKey file (way ++ [node.identifierText]) node.fields

/-- The palette is labelled as the node says, for a pass at the end of a way. -/
structure PaletteDefinition.LabelledAt (palette : PaletteDefinition) (file : String)
    (way : List String) (node : FieldNode) : Prop where
  label : palette.label = node.label
  description : palette.description = node.description
  labelPath : palette.labelPath =
    textPath file (way ++ ["palettes", node.identifierText, "label"])
  descriptionPath : palette.descriptionPath = node.description.map fun _ =>
    textPath file (way ++ ["palettes", node.identifierText, "description"])

namespace PassContext

variable {context : PassContext} {path : LanguagePath} {node : FieldNode}

/-- The link of a collection is written under four names at most. -/
theorem not_mem_keys_linkConfig {name : String}
    (hName : name ∉ ["foreign_table", "foreign_field", "foreign_table_field",
      "foreign_match_fields"]) (table unique : String) :
    name ∉ Entries.keys (linkConfig node table unique) := by
  intro hMem
  apply hName
  unfold linkConfig at hMem
  cases node.shareAcrossTables <;> cases node.shareAcrossFields <;>
    simp [Entries.keys] at hMem ⊢ <;> tauto

/-- What the link of a collection does not write is kept. -/
theorem lookup_config_compiledField {name : String}
    (hName : name ∉ ["foreign_table", "foreign_field", "foreign_table_field",
      "foreign_match_fields"]) (type : TypeDescriptor) (unique : String) :
    (context.compiledField path type node unique).config.lookup name =
      (context.unlinkedField path type node unique).config.lookup name := by
  unfold compiledField
  split
  · exact Entries.lookup_insertAll_of_not_mem (not_mem_keys_linkConfig hName _ _) _
  · rfl

/-- The data structure of a nested form is part of the configuration of its field. -/
theorem lookup_ds_compiledField {type : TypeDescriptor} (hKind : type.kind = .flexForm)
    (unique : String) :
    (context.compiledField path type node unique).config.lookup "ds" =
      some (FlexForm.formValue context (path.push node.identifierText) node.fields) := by
  rw [lookup_config_compiledField (by decide)]
  unfold unlinkedField structure?
  simp only [if_pos hKind]
  rw [Entries.lookup_insertAll]
  cases registeredItems (path.push node.identifierText) node type <;>
    simp [Value.entry?]

/-- The items of a field are part of its configuration. -/
theorem lookup_items_compiledField {type : TypeDescriptor} {value : Value}
    (hItems : registeredItems (path.push node.identifierText) node type = some value)
    (unique : String) :
    (context.compiledField path type node unique).config.lookup "items" = some value := by
  rw [lookup_config_compiledField (by decide)]
  unfold unlinkedField
  simp only [hItems]
  rw [Entries.lookup_insertAll]
  cases context.structure? (path.push node.identifierText) type node <;>
    simp [Value.entry?]

/-- A field is labelled at the position of its pass. -/
theorem labelledAt_compiledField {type : TypeDescriptor} {unique : String}
    (hForm : type.kind = .flexForm → FlexForm.WellFormed context node.fields) :
    (context.compiledField path type node unique).LabelledAt (FlexForm.structureKey context)
      path.base path.segments node := by
  have hStructure (hKind : type.kind = .flexForm) :=
    @lookup_ds_compiledField context path node type hKind unique
  obtain ⟨config, hField⟩ := context.exists_compiledField_eq path type node unique
  rw [hField] at hStructure ⊢
  constructor
  · rfl
  · rfl
  · rfl
  · exact LanguagePath.pathFor_push path _ _
  · intro hStorage
    have hShown : ¬type.storage = .passthrough := hStorage
    show describedPath? (path.push node.identifierText) node type = _
    rw [describedPath?, if_neg hShown, LanguagePath.pathFor_push]
  · intro hKind
    exact ⟨_, hStructure hKind, FlexForm.labelledAt_formValue (hForm hKind)⟩

/-- A palette is labelled at the position of its pass. -/
theorem labelledAt_paletteOf {unique : String} {entries : List PaletteEntry} :
    (paletteOf path node unique entries).LabelledAt path.base path.segments node := by
  have hSuffix (text : String) : "palettes." ++ node.identifierText ++ ("." ++ text) =
      ".".intercalate ["palettes", node.identifierText, text] := by
    simp [String.append_assoc]
  constructor
  · rfl
  · rfl
  · rw [← LanguagePath.pathFor_joined path (List.cons_ne_nil _ _), ← hSuffix]
    rfl
  · rw [← LanguagePath.pathFor_joined path (List.cons_ne_nil _ _), ← hSuffix]
    rfl

end PassContext

/-! ## Passes -/

/-- All that a pass lists is labelled as its nodes say, at the end of a way. -/
structure Pass.LabelledAt (pass : Pass) (file : String) (way : List String) : Prop where
  /-- Every field node becomes one field, in order. -/
  fields : List.Forall₂ (fun node field =>
    CompiledField.LabelledAt field (FlexForm.structureKey pass.context) file way node)
      pass.site.fields (compiledFields pass.items)
  stored : ∀ name field, (name, field) ∈ pass.table.fields → ∃ node ∈ pass.site.fields,
    field.LabelledAt (FlexForm.structureKey pass.context) file way node
  overrideColumns : ∀ field ∈ pass.contentType.overrideColumns, ∃ node ∈ pass.site.fields,
    field.LabelledAt (FlexForm.structureKey pass.context) file way node
  /-- Every palette that is not empty becomes one palette, in order. -/
  palettes : List.Forall₂ (fun node palette => PaletteDefinition.LabelledAt palette file way node)
    (pass.context.paletteNodes pass.nodes) (pass.items.filterMap PassItem.palette?)
  storedPalettes : ∀ name palette, (name, palette) ∈ pass.table.palettes →
    ∃ node ∈ pass.context.paletteNodes pass.nodes, palette.LabelledAt file way node

/-- Resolving a display condition leaves the labels alone. -/
theorem CompiledField.LabelledAt.resolveCondition {field : CompiledField} {formKey file : String}
    {way : List String} {node : FieldNode} (hField : field.LabelledAt formKey file way node)
    (names : Entries String) :
    (Pass.resolveCondition names field).LabelledAt formKey file way node :=
  ⟨hField.identifier, hField.label, hField.description, hField.labelPath,
    hField.descriptionPath, hField.form⟩

end ContentSchema
