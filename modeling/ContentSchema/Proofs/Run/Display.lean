import ContentSchema.Proofs.Run.OverrideColumns

/-!
# Columns on display

A content type shows fields one by one and palettes by name.  The palettes are
those of the merged table, where a later pass replaces a palette as a whole, so
what a content type shows in the end is not for its own pass alone to say.

* `TableDefinition.shownColumns` are the columns that a content type shows in a
  table.
* `Pass.columns` are the columns that a pass compiles.
* `shownColumns_of_compile` compares the two.

A replaced palette is NOT merged with the one before it: columns of the earlier
palette are no longer shown, and those of the later one are shown by both
content types.
-/

namespace ContentSchema

/-- The columns that a content type shows: its fields, and those of its palettes
as the table has them. -/
def TableDefinition.shownColumns (table : TableDefinition) (contentType : ContentType) :
    List String :=
  contentType.showItems.flatMap fun item =>
    match item with
    | .field identifier => [identifier]
    | .palette identifier =>
        ((table.palettes.lookup identifier).map PaletteDefinition.fieldIdentifiers).getD []
    | .tab _ => []
    | .linebreak => []

theorem TableDefinition.mem_shownColumns_iff {table : TableDefinition} {contentType : ContentType}
    {column : String} :
    column ∈ table.shownColumns contentType ↔
      ShowItem.field column ∈ contentType.showItems ∨
        ∃ identifier palette, ShowItem.palette identifier ∈ contentType.showItems ∧
          table.palettes.lookup identifier = some palette ∧ column ∈ palette.fieldIdentifiers := by
  unfold shownColumns
  rw [List.mem_flatMap]
  constructor
  · rintro ⟨item, hItem, hColumn⟩
    cases item with
    | field identifier =>
        rw [List.mem_singleton.mp hColumn]
        exact .inl hItem
    | palette identifier =>
        cases hPalette : table.palettes.lookup identifier with
        | none => simp [hPalette] at hColumn
        | some palette =>
            exact .inr ⟨identifier, palette, hItem, hPalette, by simpa [hPalette] using hColumn⟩
    | tab identifier => contradiction
    | linebreak => contradiction
  · rintro (hField | ⟨identifier, palette, hItem, hPalette, hColumn⟩)
    · exact ⟨_, hField, List.mem_singleton.mpr rfl⟩
    · exact ⟨_, hItem, by simpa [hPalette] using hColumn⟩

namespace Pass

/-! ## One pass -/

/-- The columns that a pass compiles, in palettes or not. -/
def columns (pass : Pass) : List String :=
  (compiledFields pass.items).map CompiledField.uniqueIdentifier

/-- No two palettes of the pass have one final identifier. -/
def PalettesApart (pass : Pass) : Prop :=
  ((pass.items.filterMap PassItem.palette?).map PaletteDefinition.identifier).Nodup

instance (pass : Pass) : Decidable pass.PalettesApart :=
  inferInstanceAs (Decidable (List.Nodup _))

/-- Where later passes list a palette of the pass, the last of them lists it with
the same columns. -/
def KeepsPalettes (pass : Pass) (later : List Pass) : Prop :=
  ∀ definition fields, PassItem.palette definition fields ∈ pass.items → ∀ palette,
    lastDeclared (later.map fun other => other.table.palettes.lookup definition.identifier) =
      some palette →
    ∀ column, column ∈ palette.fieldIdentifiers ↔ column ∈ definition.fieldIdentifiers

/-- Where no pass is later, no palette is replaced. -/
theorem keepsPalettes_nil (pass : Pass) : pass.KeepsPalettes [] := by
  intro definition fields _ palette hLast
  contradiction

variable {pass : Pass} {column : String}

/-- A pass compiles what it overrides and its discriminator, if that is listed. -/
theorem Compiled.mem_columns_iff (hPass : pass.Compiled) :
    column ∈ pass.columns ↔
      (∃ field ∈ pass.contentType.overrideColumns, field.uniqueIdentifier = column) ∨
        pass.context.typeField = some column ∧ column ∈ Entries.keys pass.table.fields := by
  have hListed : column ∈ pass.columns ↔ column ∈ Entries.keys pass.table.fields := by
    rw [hPass.keys_fields, List.mem_eraseDups, columns]
  have hOverridden : (∃ field ∈ pass.contentType.overrideColumns,
      field.uniqueIdentifier = column) ↔
        column ∈ Entries.keys pass.table.fields ∧ some column ≠ pass.context.typeField := by
    rw [← mem_keys_overridden, ← hPass.map_overrideColumns, List.mem_map]
  rw [hListed, hOverridden, eq_comm (a := pass.context.typeField)]
  tauto

/-- The columns of a pass stand among its fields or in its palettes. -/
theorem Compiled.mem_columns_iff_item (hPass : pass.Compiled) :
    column ∈ pass.columns ↔
      ShowItem.field column ∈ pass.contentType.showItems ∨
        ∃ definition fields, PassItem.palette definition fields ∈ pass.items ∧
          column ∈ definition.fieldIdentifiers := by
  rw [hPass.showItems_eq, columns, compiledFields]
  constructor
  · intro hColumn
    obtain ⟨field, hField, rfl⟩ := List.mem_map.mp hColumn
    obtain ⟨item, hItem, hField⟩ := List.mem_flatMap.mp hField
    cases item with
    | tab identifier => contradiction
    | palette definition fields =>
        refine .inr ⟨definition, fields, hItem, ?_⟩
        rw [hPass.fieldIdentifiers_eq hItem]
        exact List.mem_map_of_mem hField
    | field compiled =>
        obtain rfl : field = compiled := List.mem_singleton.mp hField
        exact .inl (List.mem_map.mpr ⟨_, hItem, rfl⟩)
  · rintro (hShown | ⟨definition, fields, hItem, hColumn⟩)
    · obtain ⟨item, hItem, hMade⟩ := List.mem_map.mp hShown
      cases item with
      | tab identifier => contradiction
      | palette definition fields => contradiction
      | field compiled =>
          cases hMade
          exact List.mem_map_of_mem
            (List.mem_flatMap.mpr ⟨_, hItem, List.mem_singleton.mpr rfl⟩)
    · rw [hPass.fieldIdentifiers_eq hItem] at hColumn
      obtain ⟨field, hField, rfl⟩ := List.mem_map.mp hColumn
      exact List.mem_map_of_mem (List.mem_flatMap.mpr ⟨_, hItem, hField⟩)

/-- A pass whose palettes are apart lists each of them as it is. -/
theorem Compiled.lookup_palettes (hPass : pass.Compiled) (hApart : pass.PalettesApart)
    {definition : PaletteDefinition} {fields : List CompiledField}
    (hItem : PassItem.palette definition fields ∈ pass.items) :
    pass.table.palettes.lookup definition.identifier = some definition := by
  obtain ⟨palette, hPalette⟩ := Entries.mem_keys_iff.mp (hPass.mem_keys_palettes hItem)
  obtain ⟨hIdentifier, others, hOther⟩ :=
    hPass.exists_item_of_mem_palettes (Entries.mem_of_lookup hPalette)
  have hMem : definition ∈ pass.items.filterMap PassItem.palette? :=
    List.mem_filterMap.mpr ⟨_, hItem, rfl⟩
  have hMem' : palette ∈ pass.items.filterMap PassItem.palette? :=
    List.mem_filterMap.mpr ⟨_, hOther, rfl⟩
  rw [hPalette, List.inj_on_of_nodup_map hApart hMem' hMem hIdentifier]

end Pass

/-! ## Merged palettes -/

/-- A palette that a pass lists is replaced by the last later pass that lists it
as well. -/
theorem TableDefinition.LaidOver.lookup_palettes {earlier later : List Pass} {pass : Pass}
    {table : TableDefinition}
    (hLaid : LaidOver ((earlier ++ pass :: later).map Pass.table) table) {identifier : String}
    (hListed : identifier ∈ Entries.keys pass.table.palettes) :
    table.palettes.lookup identifier =
      (lastDeclared (later.map fun other => other.table.palettes.lookup identifier)).or
        (pass.table.palettes.lookup identifier) := by
  obtain ⟨own, hOwn⟩ := Entries.mem_keys_iff.mp hListed
  rw [hLaid.palette identifier, List.map_map, List.map_append, List.map_cons,
    lastDeclared_append, lastDeclared_cons]
  show ((lastDeclared (later.map fun other => other.table.palettes.lookup identifier)).or
    (pass.table.palettes.lookup identifier)).or _ = _
  rw [hOwn, Option.or_assoc, Option.some_or]

section Run

variable {environment : Environment} {documents : List SchemaDocument} {result : CompiledResult}

/-- Of each pass on a table the columns are those that its content type overrides
and its discriminator, if it compiles one.  The palettes that the content type
shows are those of the last later pass that lists them, and those of its own
pass if there is none.  It shows exactly the columns of its own pass where its
palettes are apart and are not replaced by palettes with other columns. -/
theorem shownColumns_of_compile (hResult : compile environment documents = .ok result) :
    ∀ name table, (name, table) ∈ result.tables →
      table.contentTypes =
        ((runWalk environment documents).emission.passesOn name).map Pass.contentType ∧
      ∀ earlier pass later,
        (runWalk environment documents).emission.passesOn name = earlier ++ pass :: later →
        (∀ column, column ∈ pass.columns ↔
          (∃ field ∈ pass.contentType.overrideColumns, field.uniqueIdentifier = column) ∨
            pass.context.typeField = some column ∧ column ∈ Entries.keys pass.table.fields) ∧
        (∀ identifier, ShowItem.palette identifier ∈ pass.contentType.showItems →
          table.palettes.lookup identifier =
            (lastDeclared (later.map fun other => other.table.palettes.lookup identifier)).or
              (pass.table.palettes.lookup identifier)) ∧
        (pass.PalettesApart → pass.KeepsPalettes later →
          ∀ column, column ∈ table.shownColumns pass.contentType ↔ column ∈ pass.columns) := by
  intro name table hTable
  obtain ⟨hLaid, hContentTypes⟩ := laidOver_of_mem_tables hResult hTable
  refine ⟨hContentTypes, ?_⟩
  intro earlier pass later hSplit
  have hOn : pass ∈ (runWalk environment documents).emission.passesOn name := by
    rw [hSplit]
    simp
  have hPass := compiled_of_mem_passes (List.mem_filter.mp hOn).1
  rw [hSplit] at hLaid
  have hPalette {identifier : String}
      (hShown : ShowItem.palette identifier ∈ pass.contentType.showItems) :=
    hLaid.lookup_palettes (hPass.displays.palettes identifier hShown)
  refine ⟨fun _ => hPass.mem_columns_iff, fun _ => hPalette, ?_⟩
  intro hApart hKeeps column
  -- A palette of the merged table has the columns of the one that the pass lists.
  have hSame {definition : PaletteDefinition} {fields : List CompiledField}
      (hItem : PassItem.palette definition fields ∈ pass.items) :
      ∃ palette, table.palettes.lookup definition.identifier = some palette ∧
        (column ∈ palette.fieldIdentifiers ↔ column ∈ definition.fieldIdentifiers) := by
    rw [hLaid.lookup_palettes (hPass.mem_keys_palettes hItem)]
    cases hLast : lastDeclared
        (later.map fun other => other.table.palettes.lookup definition.identifier) with
    | none => exact ⟨definition, hPass.lookup_palettes hApart hItem, Iff.rfl⟩
    | some palette => exact ⟨palette, rfl, hKeeps definition fields hItem palette hLast column⟩
  rw [TableDefinition.mem_shownColumns_iff, hPass.mem_columns_iff_item]
  refine or_congr_right ?_
  constructor
  · rintro ⟨identifier, palette, hShown, hLookup, hColumn⟩
    rw [hPass.showItems_eq] at hShown
    obtain ⟨item, hItem, hMade⟩ := List.mem_map.mp hShown
    cases item with
    | tab other => contradiction
    | palette definition fields =>
        cases hMade
        obtain ⟨found, hFound, hColumns⟩ := hSame hItem
        obtain rfl : palette = found := Option.some.inj (hLookup.symm.trans hFound)
        exact ⟨definition, fields, hItem, hColumns.mp hColumn⟩
    | field compiled => contradiction
  · rintro ⟨definition, fields, hItem, hColumn⟩
    obtain ⟨palette, hLookup, hColumns⟩ := hSame hItem
    refine ⟨definition.identifier, palette, ?_, hLookup, hColumns.mpr hColumn⟩
    rw [hPass.showItems_eq]
    exact List.mem_map.mpr ⟨_, hItem, rfl⟩

end Run

/-- A document with one field in a palette, whose identifiers are set apart by
the vendor only. -/
def metaDocument (name identifier : String) : SchemaDocument where
  name := name
  prefixStyle := .vendor
  fields := [{ FieldNode.ofType "meta" "Palette" with fields := [.ofType identifier "Text"] }]

/-- Two documents of one vendor whose palettes are named alike. -/
def metaDocuments : List SchemaDocument :=
  [metaDocument "acme/teaser" "author", metaDocument "acme/list" "date"]

/-- The palette of the second document replaces that of the first one, whose
content type then shows the column of the second document instead of its own. -/
theorem shownColumns_replaced :
    ((compile galleryEnvironment metaDocuments).toOption.bind fun result =>
      (result.tables.lookup "tt_content").map fun table =>
        ((runWalk galleryEnvironment metaDocuments).emission.passesOn "tt_content").map fun pass =>
          (pass.contentType.identifier, table.shownColumns pass.contentType, pass.columns)) =
      some [("acme/teaser", ["acme_date"], ["acme_author"]),
        ("acme/list", ["acme_date"], ["acme_date"])] := by
  decide +kernel

/-- The second of the documents shows its own columns. -/
theorem shownColumns_of_compile_last :
    ∃ result table earlier last, compile galleryEnvironment metaDocuments = .ok result ∧
      ("tt_content", table) ∈ result.tables ∧
      (runWalk galleryEnvironment metaDocuments).emission.passesOn "tt_content" =
        earlier ++ [last] ∧
      last.PalettesApart ∧ last.KeepsPalettes [] ∧ last.columns = ["acme_date"] ∧
      ∀ column, column ∈ table.shownColumns last.contentType ↔ column ∈ last.columns := by
  have hTable : ((compile galleryEnvironment metaDocuments).toOption.map fun result =>
      (result.tables.lookup "tt_content").isSome) = some true := by
    decide +kernel
  cases hResult : compile galleryEnvironment metaDocuments with
  | error e =>
      rw [hResult] at hTable
      contradiction
  | ok result =>
      rw [hResult] at hTable
      obtain ⟨table, hLookup⟩ := Option.isSome_iff_exists.mp (Option.some.inj hTable)
      have hPasses : ((runWalk galleryEnvironment metaDocuments).emission.passesOn
          "tt_content").map (fun pass => (decide pass.PalettesApart, pass.columns)) =
            [(true, ["acme_author"]), (true, ["acme_date"])] := by
        decide +kernel
      obtain ⟨first, rest, hSplit, _, hRest⟩ := List.map_eq_cons_iff.mp hPasses
      obtain ⟨last, hLast, hMade⟩ := List.map_eq_singleton_iff.mp hRest
      obtain ⟨hApart, hColumns⟩ := Prod.mk.inj hMade
      rw [hLast] at hSplit
      have hMem := Entries.mem_of_lookup hLookup
      refine ⟨result, table, [first], last, rfl, hMem, hSplit, of_decide_eq_true hApart,
        last.keepsPalettes_nil, hColumns, ?_⟩
      exact ((shownColumns_of_compile hResult "tt_content" table hMem).2 [first] last []
        hSplit).2.2 (of_decide_eq_true hApart) last.keepsPalettes_nil

end ContentSchema
