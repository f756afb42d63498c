import ContentSchema.Proofs.Run.FieldLabels
import ContentSchema.Proofs.Run.ParentReferences

/-!
# Labels of merged fields

In one pass a field is shown with the text that is registered for the path of its
label.  A merged field takes the path from the last pass that lists the field, but
its label from the last pass that authors one.  If that is an earlier pass, the
text that is registered for the path is the identifier of the field instead.

* `LanguageKeys.Gives` says which text is registered for a path.
* `LastUnder` is the last pass that lists a field.
* `gives_of_lookup_fields` is the agreement in one pass.
* `labelSource_of_compile` says what becomes of it in a merged table.

The label that an earlier pass registers stands under the path of that pass, NOT
under the one of the merged field.
-/

namespace ContentSchema

/-- The document gives a text for the path. -/
def LanguageKeys.Gives (keys : LanguageKeys) (document path text : String) : Prop :=
  ∃ key ∈ keys.get document, key.path = path ∧ key.default = text

/-- Every merged field with form presence is shown with a text that some document
gives for the path of its label. -/
def CompiledResult.LabelsAgree (result : CompiledResult) : Prop :=
  ∀ name table, (name, table) ∈ result.tables → ∀ key field, (key, field) ∈ table.fields →
    field.fieldType.storage ≠ .passthrough → ∃ document,
      result.languageKeys.Gives document field.labelPath (field.label.getD field.identifier)

/-- Of the passes this is the last one that lists a field under the key. -/
structure LastUnder (passes : List Pass) (key : String) (pass : Pass) (last : CompiledField) :
    Prop where
  split : ∃ earlier later, passes = earlier ++ pass :: later ∧
    ∀ other ∈ later, other.table.fields.lookup key = none
  lists : pass.table.fields.lookup key = some last

/-- The last field that is contributed under a key comes from the last pass that
lists one. -/
theorem exists_lastUnder {passes : List Pass} {key : String} {last : CompiledField}
    (hLast : (TableDefinition.fieldsUnder (passes.map Pass.table) key).getLast? = some last) :
    ∃ pass, LastUnder passes key pass last := by
  have hFields : TableDefinition.fieldsUnder (passes.map Pass.table) key =
      passes.filterMap fun pass => pass.table.fields.lookup key := by
    rw [TableDefinition.fieldsUnder, List.filterMap_map]
    rfl
  rw [hFields, List.getLast?_filterMap, List.findSome?_eq_some_iff] at hLast
  obtain ⟨later, pass, earlier, hSplit, hLists, hNone⟩ := hLast
  refine ⟨pass, ⟨earlier.reverse, later.reverse, ?_, by simpa using hNone⟩, hLists⟩
  rw [← List.reverse_reverse passes, hSplit]
  simp

/-- The label of a merged field is that of its last contribution, or one authored
before if that has none. -/
theorem CompiledField.LaidOver.exists_label_eq {laid : List CompiledField}
    {field last : CompiledField} (hLaid : LaidOver laid field) (hLast : laid.getLast? = some last) :
    ∃ earlier, field.label = last.label.or earlier := by
  obtain ⟨before, rfl⟩ := List.getLast?_eq_some_iff.mp hLast
  rw [hLaid.label, List.map_append, List.map_singleton, lastDeclared_append,
    lastDeclared_singleton]
  exact ⟨_, rfl⟩

section Run

variable {environment : Environment} {documents : List SchemaDocument} {result : CompiledResult}

/-- In a pass, a field with form presence is shown with the text that its document
gives for the path of its label. -/
theorem gives_of_lookup_fields (hResult : compile environment documents = .ok result)
    {pass : Pass} (hPass : pass ∈ (runWalk environment documents).emission.passes) {key : String}
    {stored : CompiledField} (hStored : pass.table.fields.lookup key = some stored)
    (hShown : stored.fieldType.storage ≠ .passthrough) :
    result.languageKeys.Gives pass.context.document.name stored.labelPath
      (stored.label.getD stored.identifier) := by
  obtain ⟨hRun, _⟩ := compile_eq_ok_iff.mp hResult
  obtain ⟨node, hNode, _, type, hType, rfl⟩ :=
    (compiled_of_mem_passes hPass).exists_node_of_lookup hStored
  -- Neither resolving a display condition nor linking a collection touches the texts.
  obtain ⟨config, hField⟩ := pass.context.exists_compiledField_eq pass.path type node key
  rw [hField] at hShown ⊢
  have hStorage : pass.context.storageOf? node ≠ some .passthrough := by
    rw [PassContext.storageOf?_of_typeOf? hType]
    exact fun hSame => hShown (Option.some.inj hSame)
  have hLabel := (succeeds_of_mem_passes hRun hPass).labelKey_mem_ownKeys hNode hStorage
  exact ⟨_, (mem_languageKeys_iff hResult).mpr ⟨pass, hPass, rfl, hLabel⟩, rfl, rfl⟩

/-- The document of the last pass that lists a merged field gives a text for the path
of its label: the label authored there, or the identifier.  That is what the field
is shown with, unless the field only has a label that was authored before and is
not the identifier itself. -/
theorem labelSource_of_compile (hResult : compile environment documents = .ok result)
    {name : String} {table : TableDefinition} (hTable : (name, table) ∈ result.tables)
    {key : String} {field : CompiledField} (hField : (key, field) ∈ table.fields)
    (hShown : field.fieldType.storage ≠ .passthrough) :
    let passes := (runWalk environment documents).emission.passesOn name
    field.label = lastDeclared
        ((TableDefinition.fieldsUnder (passes.map Pass.table) key).map CompiledField.label) ∧
      ∃ pass last, LastUnder passes key pass last ∧
        result.languageKeys.Gives pass.context.document.name field.labelPath
          (last.label.getD field.identifier) ∧
        (last.label.getD field.identifier = field.label.getD field.identifier ↔
          last.label.isSome = true ∨ field.label = none ∨
            field.label = some field.identifier) := by
  obtain ⟨hLaid, _⟩ := laidOver_of_mem_tables hResult hTable
  have hMerged := hLaid.field key field ((Entries.mem_iff_lookup hLaid.distinct.fields).mp hField)
  obtain ⟨last, hLast, _, hIdentifier, hType, hPath, _⟩ := hMerged.last
  obtain ⟨pass, hUnder⟩ := exists_lastUnder hLast
  refine ⟨hMerged.label, pass, last, hUnder, ?_, ?_⟩
  · have hPass : pass ∈ (runWalk environment documents).emission.passesOn name := by
      obtain ⟨before, after, hSplit, _⟩ := hUnder.split
      rw [hSplit]
      simp
    rw [hPath, hIdentifier]
    rw [hType] at hShown
    exact gives_of_lookup_fields hResult (List.mem_filter.mp hPass).1 hUnder.lists hShown
  · obtain ⟨earlier, hLabel⟩ := hMerged.exists_label_eq hLast
    rw [hLabel]
    cases last.label with
    | some text => simp
    | none => cases earlier <;> simp [eq_comm]

end Run

/-- A document that authors a label for a column of its own choice. -/
def headline : SchemaDocument where
  name := "acme/headline"
  fields :=
    [ { FieldNode.ofType "title" "Text" with prefixField := some false, label := some "Headline" } ]

/-- Another document with the same column, for which it authors no label. -/
def untitled : SchemaDocument where
  name := "acme/untitled"
  fields := [ { FieldNode.ofType "title" "Text" with prefixField := some false } ]

/-- The two documents compile.  Their merged column has form presence, and only one
text is given for the path of its label. -/
theorem exists_merged_title : ∃ result table field,
    compile textEnvironment [headline, untitled] = .ok result ∧
      ("tt_content", table) ∈ result.tables ∧ ("title", field) ∈ table.fields ∧
        field.fieldType.storage ≠ .passthrough ∧ field.label = some "Headline" ∧
          ∀ entry ∈ (runWalk textEnvironment [headline, untitled]).emission.keys,
            entry.2.path = field.labelPath → entry.2.default = "title" := by
  have hComputed :
      ((compile textEnvironment [headline, untitled]).toOption.bind fun result =>
        (result.tables.lookup "tt_content").bind fun table =>
          (table.fields.lookup "title").map fun field =>
            (field.fieldType.storage, field.label,
              ((runWalk textEnvironment [headline, untitled]).emission.keys.filter fun entry =>
                entry.2.path = field.labelPath).map fun entry => (entry.1, entry.2.default))) =
        some (.input, some "Headline", [("acme/untitled", "title")]) := by
    decide +kernel
  obtain ⟨result, hResult, hTables⟩ := Option.bind_eq_some_iff.mp hComputed
  obtain ⟨table, hTable, hInTable⟩ := Option.bind_eq_some_iff.mp hTables
  obtain ⟨field, hField, hTexts⟩ := Option.map_eq_some_iff.mp hInTable
  obtain ⟨hStorage, hRest⟩ := Prod.mk.inj hTexts
  obtain ⟨hLabel, hGiven⟩ := Prod.mk.inj hRest
  refine ⟨result, table, field, eq_ok_of_toOption_eq_some hResult, Entries.mem_of_lookup hTable,
    Entries.mem_of_lookup hField, by rw [hStorage]; decide, hLabel, ?_⟩
  intro entry hEntry hPath
  have hListed : (entry.1, entry.2.default) ∈ [("acme/untitled", "title")] := by
    rw [← hGiven]
    exact List.mem_map.mpr ⟨entry, List.mem_filter.mpr ⟨hEntry, decide_eq_true hPath⟩, rfl⟩
  exact (Prod.mk.inj (List.mem_singleton.mp hListed)).2

/-- The merged column is shown as "Headline", and no document gives that text for the
path of its label. -/
theorem labels_disagree_headline :
    ([headline, untitled].map SchemaDocument.name).Nodup ∧
      ∃ result, compile textEnvironment [headline, untitled] = .ok result ∧
        ¬result.LabelsAgree := by
  obtain ⟨result, table, field, hResult, hTable, hField, hShown, hLabel, hTexts⟩ :=
    exists_merged_title
  refine ⟨by decide, result, hResult, fun hAgree => ?_⟩
  obtain ⟨document, key, hKey, hPath, hText⟩ := hAgree _ _ hTable _ _ hField hShown
  have hTitle := hTexts _ ((mem_get_languageKeys_iff hResult).mp hKey) hPath
  rw [hLabel] at hText
  have hSame : "title" = "Headline" := hTitle.symm.trans hText
  exact absurd hSame (by decide)

/-- The rule at the merged column of the two documents, of which the last one authors
no label. -/
theorem labelSource_of_compile_headline : ∃ result table field pass last,
    compile textEnvironment [headline, untitled] = .ok result ∧
      ("tt_content", table) ∈ result.tables ∧ ("title", field) ∈ table.fields ∧
        field.fieldType.storage ≠ .passthrough ∧
          LastUnder ((runWalk textEnvironment [headline, untitled]).emission.passesOn "tt_content")
            "title" pass last ∧
          result.languageKeys.Gives pass.context.document.name field.labelPath
            (last.label.getD field.identifier) ∧
          (last.label.getD field.identifier = field.label.getD field.identifier ↔
            last.label.isSome = true ∨ field.label = none ∨
              field.label = some field.identifier) := by
  obtain ⟨result, table, field, hResult, hTable, hField, hShown, _⟩ := exists_merged_title
  obtain ⟨_, pass, last, hUnder, hGives, hAgrees⟩ :=
    labelSource_of_compile hResult hTable hField hShown
  exact ⟨result, table, field, pass, last, hResult, hTable, hField, hShown, hUnder, hGives,
    hAgrees⟩

end ContentSchema
