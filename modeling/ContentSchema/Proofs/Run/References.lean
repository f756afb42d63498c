import ContentSchema.Proofs.Run.Tables

/-!
# References inside a result

A result mentions nothing that it does not define: what a table lists is listed
under its own name, and what palettes and content types show is listed.

* `TableDefinition.Closed` and `TableDefinition.Displays` state this of a table
  and of a content type shown with it.
* `Pass.Compiled.closed` and `Pass.Compiled.displays` prove it of one pass.
* `TableDefinition.LaidOver.closed` carries it through a merge: fields and
  palettes of a pass may be replaced there, but no identifier is ever lost.
* `closed_of_compile` is the statement about results.

A field that a palette shows may well come from another pass than the palette.
-/

namespace ContentSchema

namespace TableDefinition

/-- The table lists everything under its own identifier, and the palettes show
fields of the table. -/
structure Closed (table : TableDefinition) : Prop where
  fields : ∀ key field, (key, field) ∈ table.fields → field.uniqueIdentifier = key
  palettes : ∀ key palette, (key, palette) ∈ table.palettes → palette.identifier = key
  paletteItems : ∀ key palette, (key, palette) ∈ table.palettes → ∀ identifier,
    PaletteItem.field identifier ∈ palette.items → identifier ∈ Entries.keys table.fields

/-- The content type shows fields and palettes of the table, and no line break. -/
structure Displays (table : TableDefinition) (contentType : ContentType) : Prop where
  fields : ∀ identifier, ShowItem.field identifier ∈ contentType.showItems →
    identifier ∈ Entries.keys table.fields
  palettes : ∀ identifier, ShowItem.palette identifier ∈ contentType.showItems →
    identifier ∈ Entries.keys table.palettes
  linebreaks : ShowItem.linebreak ∉ contentType.showItems

end TableDefinition

/-! ## One pass -/

namespace PassContext

variable {context : PassContext} {path : LanguagePath} {node : FieldNode}

/-- A palette among the items of a node shows the fields that it contributes. -/
theorem MakesItems.fieldIdentifiers {items : List PassItem} {definition : PaletteDefinition}
    {fields : List CompiledField} (hItems : context.MakesItems path node items)
    (hPalette : PassItem.palette definition fields ∈ items) :
    definition.fieldIdentifiers = fields.map CompiledField.uniqueIdentifier := by
  cases hItems with
  | tab hKind => simp at hPalette
  | empty hKind hFields => contradiction
  | palette hKind hFields named made =>
      cases List.mem_singleton.mp hPalette
      exact fieldIdentifiers_paletteOf _ _
  | field hPalette' hTab made => simp at hPalette

theorem table_of_contentType {contentType : ContentType}
    (hType : context.contentType = .ok contentType) : contentType.table = context.table := by
  obtain ⟨_, _, hMade⟩ := bind_eq_ok_iff.mp hType
  cases hMade
  rfl

end PassContext

namespace Pass

variable {pass : Pass}

theorem Compiled.table_eq (hPass : pass.Compiled) : pass.table.table = pass.context.table := by
  obtain ⟨sortFields, hTable⟩ := hPass.exists_tableWith
  rw [hTable]
  rfl

/-- The content type of a pass is the one of its context, with its title and
with what the pass shows. -/
theorem Compiled.contentType_eq (hPass : pass.Compiled) :
    ∃ contentType, pass.context.contentType = .ok contentType ∧
      pass.contentType = shownType pass.context (pass.context.titledType pass.path contentType)
        pass.items pass.table := by
  obtain ⟨contentType, _, hType, _, hClose⟩ := hPass
  obtain ⟨table, _, hMade⟩ := close_eq_ok_iff.mp hClose
  exact ⟨contentType, hType, by rw [hMade]⟩

theorem Compiled.contentType_table (hPass : pass.Compiled) :
    pass.contentType.table = pass.context.table := by
  obtain ⟨contentType, hType, hMade⟩ := hPass.contentType_eq
  rw [hMade, ← PassContext.table_of_contentType hType]
  show (pass.context.titledType pass.path contentType).table = contentType.table
  unfold PassContext.titledType
  split <;> rfl

theorem Compiled.showItems_eq (hPass : pass.Compiled) :
    pass.contentType.showItems = pass.items.map PassItem.showItem := by
  obtain ⟨_, _, hMade⟩ := hPass.contentType_eq
  rw [hMade]
  rfl

/-- What a content type overrides is read off the table of its pass. -/
theorem Compiled.overrideColumns_eq (hPass : pass.Compiled) :
    pass.contentType.overrideColumns = overrideColumns pass.context pass.table := by
  obtain ⟨_, _, hMade⟩ := hPass.contentType_eq
  rw [hMade]
  rfl

/-- Every field of an item is listed. -/
theorem Compiled.mem_keys_fields (hPass : pass.Compiled) {item : PassItem}
    (hItem : item ∈ pass.items) {field : CompiledField} (hField : field ∈ item.fields) :
    field.uniqueIdentifier ∈ Entries.keys pass.table.fields := by
  rw [hPass.keys_fields, List.mem_eraseDups]
  exact List.mem_map_of_mem (List.mem_flatMap.mpr ⟨item, hItem, hField⟩)

theorem Compiled.mem_keys_palettes (hPass : pass.Compiled) {definition : PaletteDefinition}
    {fields : List CompiledField} (hItem : PassItem.palette definition fields ∈ pass.items) :
    definition.identifier ∈ Entries.keys pass.table.palettes := by
  rw [hPass.keys_palettes, List.mem_eraseDups]
  exact List.mem_map_of_mem (List.mem_filterMap.mpr ⟨_, hItem, rfl⟩)

/-- Every listed palette is an item of the pass. -/
theorem Compiled.exists_item_of_mem_palettes (hPass : pass.Compiled) {key : String}
    {palette : PaletteDefinition} (hPalette : (key, palette) ∈ pass.table.palettes) :
    palette.identifier = key ∧ ∃ fields, PassItem.palette palette fields ∈ pass.items := by
  obtain ⟨sortFields, hTable⟩ := hPass.exists_tableWith
  rw [hTable] at hPalette
  obtain ⟨other, hOther, hEntry⟩ := List.mem_map.mp (Entries.mem_of_mem_ofList hPalette)
  cases hEntry
  obtain ⟨item, hItem, hMade⟩ := List.mem_filterMap.mp hOther
  cases item with
  | tab identifier => contradiction
  | palette definition fields =>
      cases hMade
      exact ⟨rfl, fields, hItem⟩
  | field compiled => contradiction

/-- The palettes among the items of a pass show the fields that come with them. -/
theorem Compiled.fieldIdentifiers_eq (hPass : pass.Compiled) {definition : PaletteDefinition}
    {fields : List CompiledField} (hItem : PassItem.palette definition fields ∈ pass.items) :
    definition.fieldIdentifiers = fields.map CompiledField.uniqueIdentifier := by
  obtain ⟨chunks, hChunks, hItems⟩ := hPass.exists_chunks
  -- The palette stands among the items of one node, which shows all of its fields.
  obtain ⟨chunk, hChunk, hMem⟩ := List.mem_flatten.mp (hItems ▸ hItem)
  obtain ⟨node, _, hMakes⟩ := exists_of_forall₂_mem_right hChunks hChunk
  exact hMakes.fieldIdentifiers hMem

theorem Compiled.closed (hPass : pass.Compiled) : pass.table.Closed where
  fields := by
    intro key field hField
    obtain ⟨_, _, hKey, rfl⟩ := hPass.exists_field_of_mem_fields hField
    exact hKey
  palettes := fun _ _ hPalette => (hPass.exists_item_of_mem_palettes hPalette).1
  paletteItems := by
    intro key palette hPalette identifier hShown
    obtain ⟨_, fields, hItem⟩ := hPass.exists_item_of_mem_palettes hPalette
    have hIdentifier : identifier ∈ palette.fieldIdentifiers :=
      List.mem_filterMap.mpr ⟨_, hShown, rfl⟩
    rw [hPass.fieldIdentifiers_eq hItem] at hIdentifier
    obtain ⟨field, hField, rfl⟩ := List.mem_map.mp hIdentifier
    exact hPass.mem_keys_fields hItem hField

theorem Compiled.displays (hPass : pass.Compiled) : pass.table.Displays pass.contentType where
  fields := by
    intro identifier hShown
    rw [hPass.showItems_eq] at hShown
    obtain ⟨item, hItem, hMade⟩ := List.mem_map.mp hShown
    cases item with
    | tab other => contradiction
    | palette definition fields => contradiction
    | field compiled =>
        cases hMade
        exact hPass.mem_keys_fields hItem (List.mem_singleton.mpr rfl)
  palettes := by
    intro identifier hShown
    rw [hPass.showItems_eq] at hShown
    obtain ⟨item, hItem, hMade⟩ := List.mem_map.mp hShown
    cases item with
    | tab other => contradiction
    | palette definition fields =>
        cases hMade
        exact hPass.mem_keys_palettes hItem
    | field compiled => contradiction
  linebreaks := by
    intro hShown
    rw [hPass.showItems_eq] at hShown
    obtain ⟨item, _, hMade⟩ := List.mem_map.mp hShown
    cases item <;> contradiction

end Pass

/-! ## Merged tables -/

namespace TableDefinition

variable {laid : List TableDefinition} {merged : TableDefinition}

/-- A merged table lists the fields of each of its parts. -/
theorem LaidOver.mem_keys_fields (hLaid : LaidOver laid merged) {part : TableDefinition}
    (hPart : part ∈ laid) {key : String} (hKey : key ∈ Entries.keys part.fields) :
    key ∈ Entries.keys merged.fields := by
  rw [hLaid.fieldNames, List.mem_eraseDups]
  exact List.mem_flatMap.mpr ⟨part, hPart, hKey⟩

theorem LaidOver.mem_keys_palettes (hLaid : LaidOver laid merged) {part : TableDefinition}
    (hPart : part ∈ laid) {key : String} (hKey : key ∈ Entries.keys part.palettes) :
    key ∈ Entries.keys merged.palettes := by
  rw [hLaid.paletteNames, List.mem_eraseDups]
  exact List.mem_flatMap.mpr ⟨part, hPart, hKey⟩

/-- A merged palette is a palette of one of the parts, unchanged. -/
theorem LaidOver.exists_part_of_mem_palettes (hLaid : LaidOver laid merged) {key : String}
    {palette : PaletteDefinition} (hPalette : (key, palette) ∈ merged.palettes) :
    ∃ part ∈ laid, (key, palette) ∈ part.palettes := by
  have hLookup := (Entries.mem_iff_lookup hLaid.distinct.palettes).mp hPalette
  rw [hLaid.palette key] at hLookup
  obtain ⟨part, hPart, hFound⟩ := List.mem_map.mp (mem_of_lastDeclared hLookup)
  exact ⟨part, hPart, Entries.mem_of_lookup hFound⟩

/-- Closed tables laid over each other make a closed table. -/
theorem LaidOver.closed (hLaid : LaidOver laid merged) (hParts : ∀ part ∈ laid, part.Closed) :
    merged.Closed where
  fields := by
    intro key field hField
    have hLookup := (Entries.mem_iff_lookup hLaid.distinct.fields).mp hField
    -- The final identifier is taken from the last part that lists the field.
    obtain ⟨last, hLast, hUnique, _⟩ := (hLaid.field key field hLookup).last
    obtain ⟨part, hPart, hFound⟩ := List.mem_filterMap.mp (List.mem_of_getLast? hLast)
    rw [hUnique]
    exact (hParts part hPart).fields key last (Entries.mem_of_lookup hFound)
  palettes := by
    intro key palette hPalette
    obtain ⟨part, hPart, hListed⟩ := hLaid.exists_part_of_mem_palettes hPalette
    exact (hParts part hPart).palettes key palette hListed
  paletteItems := by
    intro key palette hPalette identifier hShown
    obtain ⟨part, hPart, hListed⟩ := hLaid.exists_part_of_mem_palettes hPalette
    have hKey := (hParts part hPart).paletteItems key palette hListed identifier hShown
    exact hLaid.mem_keys_fields hPart hKey

/-- What a part displays, the merged table displays as well. -/
theorem LaidOver.displays (hLaid : LaidOver laid merged) {part : TableDefinition}
    (hPart : part ∈ laid) {contentType : ContentType} (hShown : part.Displays contentType) :
    merged.Displays contentType where
  fields := fun identifier hMem => hLaid.mem_keys_fields hPart (hShown.fields identifier hMem)
  palettes := fun identifier hMem =>
    hLaid.mem_keys_palettes hPart (hShown.palettes identifier hMem)
  linebreaks := hShown.linebreaks

end TableDefinition

/-- What a pass lists under a name has a place in the merged table, together with what
all passes on that table list there. -/
theorem exists_field_of_mem_passes {environment : Environment} {documents : List SchemaDocument}
    {result : CompiledResult} (hResult : compile environment documents = .ok result) {pass : Pass}
    (hPass : pass ∈ (runWalk environment documents).emission.passes) {key : String}
    {stored : CompiledField} (hStored : pass.table.fields.lookup key = some stored) :
    ∃ merged field, result.tables.lookup pass.context.table = some merged ∧
      merged.fields.lookup key = some field ∧
      CompiledField.LaidOver
        (TableDefinition.fieldsUnder
          (((runWalk environment documents).emission.passesOn pass.context.table).map Pass.table)
          key) field := by
  obtain ⟨merged, hMerged⟩ := exists_lookup_of_mem_passes hResult hPass
  obtain ⟨hLaid, _⟩ := laidOver_of_mem_tables hResult (Entries.mem_of_lookup hMerged)
  have hOn : pass ∈ (runWalk environment documents).emission.passesOn pass.context.table :=
    List.mem_filter.mpr ⟨hPass, decide_eq_true rfl⟩
  have hKey : key ∈ Entries.keys merged.fields :=
    hLaid.mem_keys_fields (List.mem_map_of_mem hOn) (Entries.mem_keys_iff.mpr ⟨stored, hStored⟩)
  obtain ⟨field, hField⟩ := Entries.mem_keys_iff.mp hKey
  exact ⟨merged, field, hMerged, hField, hLaid.field key field hField⟩

/-- A result is closed under references: every table has its own name, so has
the table of each of its content types, and everything that is shown is listed. -/
theorem closed_of_compile {environment : Environment} {documents : List SchemaDocument}
    {result : CompiledResult} (hResult : compile environment documents = .ok result) :
    ∀ name table, (name, table) ∈ result.tables →
      table.table = name ∧ table.Closed ∧
        ∀ contentType ∈ table.contentTypes,
          contentType.table = name ∧ table.Displays contentType := by
  intro name table hTable
  obtain ⟨hLaid, hContentTypes⟩ := laidOver_of_mem_tables hResult hTable
  have hCompiled : ∀ pass ∈ (runWalk environment documents).emission.passesOn name,
      pass.Compiled ∧ pass.context.table = name := by
    intro pass hPass
    obtain ⟨hMem, hOn⟩ := List.mem_filter.mp hPass
    exact ⟨compiled_of_mem_passes hMem, by simpa using hOn⟩
  refine ⟨?_, hLaid.closed ?_, ?_⟩
  · obtain ⟨first, hFirst, hName⟩ := hLaid.table
    obtain ⟨pass, hPass, rfl⟩ := List.mem_map.mp (List.mem_of_head? hFirst)
    rw [hName, (hCompiled pass hPass).1.table_eq]
    exact (hCompiled pass hPass).2
  · intro part hPart
    obtain ⟨pass, hPass, rfl⟩ := List.mem_map.mp hPart
    exact (hCompiled pass hPass).1.closed
  · intro contentType hContentType
    rw [hContentTypes] at hContentType
    obtain ⟨pass, hPass, rfl⟩ := List.mem_map.mp hContentType
    refine ⟨?_, hLaid.displays (List.mem_map_of_mem hPass) (hCompiled pass hPass).1.displays⟩
    rw [(hCompiled pass hPass).1.contentType_table]
    exact (hCompiled pass hPass).2

/-- A document with a palette around one field and a collection with another. -/
def gallery : SchemaDocument where
  name := "acme/gallery"
  fields :=
    [ { FieldNode.ofType "heading" "Palette" with
        fields := [.ofType "title" "Text", .linebreak] },
      { FieldNode.ofType "slides" "Collection" with fields := [.ofType "caption" "Text"] } ]

/-- A catalog for the document, and no existing column. -/
def galleryEnvironment : Environment where
  catalog :=
    ⟨[ { name := "Collection", kind := .collection, storage := .inline },
       .structural "Linebreak" .linebreak, .structural "Palette" .palette,
       { name := "Text", storage := .input } ]⟩
  baseSchema := .empty

/-- Both tables of the document are closed. -/
theorem closed_of_compile_gallery :
    ∃ result, compile galleryEnvironment [gallery] = .ok result ∧
      Entries.keys result.tables = ["tt_content", "acme_gallery_slides"] ∧
      ∀ name table, (name, table) ∈ result.tables →
        table.table = name ∧ table.Closed ∧
          ∀ contentType ∈ table.contentTypes,
            contentType.table = name ∧ table.Displays contentType := by
  have hTables : ((compile galleryEnvironment [gallery]).toOption.map fun result =>
      Entries.keys result.tables) = some ["tt_content", "acme_gallery_slides"] := by
    decide +kernel
  cases hResult : compile galleryEnvironment [gallery] with
  | error e =>
      rw [hResult] at hTables
      contradiction
  | ok result =>
      rw [hResult] at hTables
      exact ⟨result, rfl, Option.some.inj hTables, closed_of_compile hResult⟩

end ContentSchema
