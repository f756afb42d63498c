import ContentSchema.Proofs.Run.Discriminators

/-!
# Override columns

A content type overrides the fields that its pass lists, as the pass leaves
them, except for the discriminator.  The merged table lists the fields of all
passes, so the two tell the same names: every override column is listed, and
what is listed is overridden by some content type.

* `Pass.overridden` are the fields that a pass contributes for overriding.
* `Pass.Compiled.overrideColumns_eq_values` says that they are overridden in the
  order of the table.
* `overrideColumns_of_compile` compares the content types of a table with its
  fields.

Only names are compared: an override column does NOT take part in the merge, so
the field that the table lists under its name may be configured differently.
-/

namespace ContentSchema

namespace Pass

/-- The fields that a pass contributes, without the one under its discriminator. -/
def overridden (pass : Pass) : Entries CompiledField :=
  pass.table.fields.filter fun entry => some entry.1 ≠ pass.context.typeField

variable {pass : Pass}

theorem mem_keys_overridden {key : String} :
    key ∈ Entries.keys pass.overridden ↔
      key ∈ Entries.keys pass.table.fields ∧ some key ≠ pass.context.typeField := by
  unfold overridden Entries.keys
  constructor
  · intro hKey
    obtain ⟨entry, hEntry, rfl⟩ := List.mem_map.mp hKey
    obtain ⟨hListed, hOther⟩ := List.mem_filter.mp hEntry
    exact ⟨List.mem_map_of_mem hListed, of_decide_eq_true hOther⟩
  · rintro ⟨hKey, hOther⟩
    obtain ⟨entry, hListed, rfl⟩ := List.mem_map.mp hKey
    exact List.mem_map_of_mem (List.mem_filter.mpr ⟨hListed, decide_eq_true hOther⟩)

/-- Fields are listed under their final identifiers, so the discriminator is left
out by its name. -/
theorem Compiled.overrideColumns_eq_values (hPass : pass.Compiled) :
    pass.contentType.overrideColumns = Entries.values pass.overridden := by
  rw [hPass.overrideColumns_eq, Pass.overrideColumns, overridden, Entries.values, Entries.values,
    List.filter_map]
  congr 1
  apply List.filter_congr
  rintro ⟨key, field⟩ hField
  have hKey : field.uniqueIdentifier = key := hPass.closed.fields key field hField
  show decide (some field.uniqueIdentifier ≠ pass.context.typeField) =
    decide (some key ≠ pass.context.typeField)
  rw [hKey]

/-- The override columns go by the names of the fields that are overridden. -/
theorem Compiled.map_overrideColumns (hPass : pass.Compiled) :
    pass.contentType.overrideColumns.map CompiledField.uniqueIdentifier =
      Entries.keys pass.overridden := by
  rw [hPass.overrideColumns_eq_values, Entries.values, Entries.keys, List.map_map]
  apply List.map_congr_left
  rintro ⟨key, field⟩ hEntry
  exact hPass.closed.fields key field (List.mem_filter.mp hEntry).1

/-- A nested pass has no discriminator. -/
theorem EmbeddedIn.typeField_eq_none {passes : List Pass} (hPass : pass.EmbeddedIn passes) :
    pass.context.typeField = none := by
  obtain ⟨_, _, _, hEmbeds⟩ := hPass
  obtain ⟨_, hContext⟩ := Site.context_of_child? hEmbeds.child
  show pass.site.context.typeField = none
  rw [hContext]
  rfl

end Pass

section Run

variable {environment : Environment} {documents : List SchemaDocument} {result : CompiledResult}

/-- The discriminator of a pass is that of a document on its table. -/
theorem exists_document_of_typeField (hRun : (runWalk environment documents).result = .ok ())
    {pass : Pass} (hPass : pass ∈ (runWalk environment documents).emission.passes) {key : String}
    (hField : pass.context.typeField = some key) :
    ∃ document ∈ documents, document.tableName = some pass.context.table ∧
      document.typeFieldName = some key := by
  rcases own_or_embedded_of_mem_passes hRun hPass with
    ⟨before, document, after, rfl, hReads, _⟩ | hEmbedded
  · refine ⟨document, by simp, (PassContext.tableName_of_ofDocument hReads).1, ?_⟩
    rw [← (PassContext.ofDocument_of_eq_ok hReads).typeField]
    exact hField
  · rw [hEmbedded.typeField_eq_none] at hField
    contradiction

/-- Every override column of a table is one of its fields, and every field of a
table is an override column unless it is the discriminator of a document on the
table.  The content types are those of the passes that contribute to the table,
and each of them overrides exactly the fields that its pass contributes, in
order, without the discriminator of the pass. -/
theorem overrideColumns_of_compile (hResult : compile environment documents = .ok result) :
    ∀ name table, (name, table) ∈ result.tables →
      (∀ contentType ∈ table.contentTypes, ∀ column ∈ contentType.overrideColumns,
        column.uniqueIdentifier ∈ Entries.keys table.fields) ∧
      (∀ key ∈ Entries.keys table.fields,
        (∃ contentType ∈ table.contentTypes, ∃ column ∈ contentType.overrideColumns,
          column.uniqueIdentifier = key) ∨
        ∃ document ∈ documents, document.tableName = some name ∧
          document.typeFieldName = some key) ∧
      TableDefinition.LaidOver
        (((runWalk environment documents).emission.passesOn name).map Pass.table) table ∧
      table.contentTypes =
        ((runWalk environment documents).emission.passesOn name).map Pass.contentType ∧
      ∀ pass ∈ (runWalk environment documents).emission.passesOn name,
        pass.contentType.overrideColumns = Entries.values pass.overridden := by
  intro name table hTable
  obtain ⟨hRun, _⟩ := compile_eq_ok_iff.mp hResult
  obtain ⟨hLaid, hContentTypes⟩ := laidOver_of_mem_tables hResult hTable
  have hOn : ∀ pass ∈ (runWalk environment documents).emission.passesOn name,
      pass ∈ (runWalk environment documents).emission.passes ∧ pass.Compiled ∧
        pass.context.table = name := by
    intro pass hPass
    obtain ⟨hMem, hName⟩ := List.mem_filter.mp hPass
    exact ⟨hMem, compiled_of_mem_passes hMem, of_decide_eq_true hName⟩
  refine ⟨?_, ?_, hLaid, hContentTypes,
    fun pass hPass => (hOn pass hPass).2.1.overrideColumns_eq_values⟩
  · intro contentType hContentType column hColumn
    rw [hContentTypes] at hContentType
    obtain ⟨pass, hPass, rfl⟩ := List.mem_map.mp hContentType
    have hKey : column.uniqueIdentifier ∈ Entries.keys pass.overridden := by
      rw [← (hOn pass hPass).2.1.map_overrideColumns]
      exact List.mem_map_of_mem hColumn
    exact hLaid.mem_keys_fields (List.mem_map_of_mem hPass) (Pass.mem_keys_overridden.mp hKey).1
  · intro key hKey
    -- A field of the table is one of a pass, which overrides it or is told apart by it.
    rw [hLaid.fieldNames, List.mem_eraseDups, List.mem_flatMap] at hKey
    obtain ⟨_, hPart, hKey⟩ := hKey
    obtain ⟨pass, hPass, rfl⟩ := List.mem_map.mp hPart
    obtain ⟨hMem, hCompiled, hName⟩ := hOn pass hPass
    by_cases hField : some key = pass.context.typeField
    · obtain ⟨document, hDocument, hOwn, hDeclares⟩ :=
        exists_document_of_typeField hRun hMem hField.symm
      exact .inr ⟨document, hDocument, by rw [hOwn, hName], hDeclares⟩
    · have hOverridden : key ∈ Entries.keys pass.overridden :=
        Pass.mem_keys_overridden.mpr ⟨hKey, hField⟩
      rw [← hCompiled.map_overrideColumns] at hOverridden
      obtain ⟨column, hColumn, hSame⟩ := List.mem_map.mp hOverridden
      refine .inl ⟨pass.contentType, ?_, column, hColumn, hSame⟩
      rw [hContentTypes]
      exact List.mem_map_of_mem hPass

end Run

/-- Of the fields of two record types on one table only the discriminator is not
overridden. -/
theorem overrideColumns_of_compile_vehicles :
    ∃ result table, compile vehicleEnvironment [bicycle, car] = .ok result ∧
      ("tx_vehicle", table) ∈ result.tables ∧
      Entries.keys table.fields = ["type", "acme_bicycle_gears", "acme_car_parts"] ∧
      table.contentTypes.map (fun contentType =>
        contentType.overrideColumns.map CompiledField.uniqueIdentifier) =
          [["acme_bicycle_gears"], ["acme_car_parts"]] ∧
      ∀ key ∈ Entries.keys table.fields,
        (∃ contentType ∈ table.contentTypes, ∃ column ∈ contentType.overrideColumns,
          column.uniqueIdentifier = key) ∨
        ∃ document ∈ [bicycle, car], document.tableName = some "tx_vehicle" ∧
          document.typeFieldName = some key := by
  have hTable : ((compile vehicleEnvironment [bicycle, car]).toOption.bind fun result =>
      (result.tables.lookup "tx_vehicle").map fun table =>
        (Entries.keys table.fields, table.contentTypes.map fun contentType =>
          contentType.overrideColumns.map CompiledField.uniqueIdentifier)) =
        some (["type", "acme_bicycle_gears", "acme_car_parts"],
          [["acme_bicycle_gears"], ["acme_car_parts"]]) := by
    decide +kernel
  cases hResult : compile vehicleEnvironment [bicycle, car] with
  | error e =>
      rw [hResult] at hTable
      contradiction
  | ok result =>
      rw [hResult] at hTable
      obtain ⟨table, hLookup, hMade⟩ := Option.map_eq_some_iff.mp hTable
      obtain ⟨hKeys, hColumns⟩ := Prod.mk.inj hMade
      have hMem := Entries.mem_of_lookup hLookup
      exact ⟨result, table, rfl, hMem, hKeys, hColumns,
        (overrideColumns_of_compile hResult "tx_vehicle" table hMem).2.1⟩

end ContentSchema
