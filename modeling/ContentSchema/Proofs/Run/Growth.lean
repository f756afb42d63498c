import ContentSchema.Proofs.Run.Listings
import ContentSchema.Proofs.Run.ParentReferences

/-!
# Growth of results

Further documents only add to a result.  The walk over more documents begins with
the walk over the first ones, so whatever a result lists is listed in the same
order, ahead of all that the further documents add.

* `runWalk_emission_append` splits what a run over more documents emits.
* `TableDefinition.LaidOver.growsInto` compares the definitions of one table.
* `growsInto_of_compile` compares whole results.

Only names and lists are kept.  What stands under a name is NOT: a further
document may change the label or the configuration of a column.
-/

namespace ContentSchema

/-! ## Results that grow -/

/-- Whatever the first definition lists, the second one lists in the same order,
ahead of anything else. -/
structure TableDefinition.GrowsInto (before after : TableDefinition) : Prop where
  contentTypes : before.contentTypes <+: after.contentTypes
  fields : Entries.keys before.fields <+: Entries.keys after.fields
  palettes : Entries.keys before.palettes <+: Entries.keys after.palettes

/-- Whatever the first result lists, the second one lists in the same order,
ahead of anything else. -/
structure CompiledResult.GrowsInto (before after : CompiledResult) : Prop where
  tables : Entries.keys before.tables <+: Entries.keys after.tables
  table : ∀ name table, (name, table) ∈ before.tables →
    ∃ grown, after.table? name = some grown ∧ table.GrowsInto grown
  languageKeys : ∀ name, before.languageKeys.get name <+: after.languageKeys.get name
  parentReferences : ∀ table, before.referencesTo table <+: after.referencesTo table

/-! ## One table -/

/-- Names that are listed first remain so if more lists follow. -/
theorem eraseDups_flatMap_prefix {α : Type} (names : α → List String) (first more : List α) :
    (first.flatMap names).eraseDups <+: ((first ++ more).flatMap names).eraseDups := by
  apply Entries.eraseDups_prefix
  rw [List.flatMap_append]
  exact List.prefix_append _ _

/-- A definition that more are laid over lists what it did before. -/
theorem TableDefinition.LaidOver.growsInto {first more : List TableDefinition}
    {table grown : TableDefinition} (hTable : LaidOver first table)
    (hGrown : LaidOver (first ++ more) grown)
    (hContentTypes : table.contentTypes <+: grown.contentTypes) : table.GrowsInto grown where
  contentTypes := hContentTypes
  fields := by
    rw [hTable.fieldNames, hGrown.fieldNames]
    exact eraseDups_flatMap_prefix _ first more
  palettes := by
    rw [hTable.paletteNames, hGrown.paletteNames]
    exact eraseDups_flatMap_prefix _ first more

/-! ## Runs over more documents -/

theorem Emission.passesOn_append (first second : Emission) (table : String) :
    (first ++ second).passesOn table = first.passesOn table ++ second.passesOn table := by
  rw [passesOn, passes_append, List.filter_append]
  rfl

section Run

variable {environment : Environment} {first more : List SchemaDocument}

/-- What a run over more documents emits begins with what the run over the first
ones emits. -/
theorem runWalk_emission_append (hRun : (runWalk environment (first ++ more)).result = .ok ()) :
    (runWalk environment first).result = .ok () ∧
      (runWalk environment (first ++ more)).emission =
        (runWalk environment first).emission ++
          (SchemaDocument.compileAll environment (first.foldl SchemaDocument.declare [])
            more).emission := by
  unfold runWalk at hRun ⊢
  rw [SchemaDocument.compileAll_append] at hRun ⊢
  obtain ⟨_, hFirst, _⟩ := Walk.bind_result_eq_ok_iff.mp hRun
  rw [Walk.bind_of_ok hFirst]
  exact ⟨hFirst, rfl⟩

/-- Entries that are emitted first are listed first under each name. -/
theorem filter_name_prefix {α : Type} {entries more : List (String × α)} (h : entries <+: more)
    (name : String) :
    (entries.filter fun entry => entry.1 = name).map Prod.snd <+:
      (more.filter fun entry => entry.1 = name).map Prod.snd :=
  (h.filter _).map _

/-- **Growth.**  If a run over more documents succeeds, so does the one over the
first of them, and its result grows into the other one. -/
theorem growsInto_of_compile {after : CompiledResult}
    (hAfter : compile environment (first ++ more) = .ok after) :
    ∃ before, compile environment first = .ok before ∧ before.GrowsInto after := by
  obtain ⟨hRun, _⟩ := compile_eq_ok_iff.mp hAfter
  obtain ⟨hFirst, hEmission⟩ := runWalk_emission_append hRun
  have hBefore := compile_eq_ok_iff.mpr ⟨hFirst, rfl⟩
  refine ⟨_, hBefore, ?_, ?_, ?_, ?_⟩
  · rw [keys_tables_of_compile hBefore, keys_tables_of_compile hAfter, hEmission]
    exact Entries.eraseDups_prefix (List.prefix_append _ _)
  · intro name table hTable
    obtain ⟨hLaid, hContentTypes⟩ := laidOver_of_mem_tables hBefore hTable
    -- The table keeps its name, so the larger result has a definition of it too.
    have hKey : name ∈ Entries.keys after.tables := by
      rw [keys_tables_of_compile hAfter, hEmission]
      rw [List.mem_eraseDups, Emission.opened_append, List.mem_append, ← List.mem_eraseDups,
        ← keys_tables_of_compile hBefore]
      exact .inl (List.mem_map_of_mem hTable)
    obtain ⟨grown, hGrown⟩ := Entries.mem_keys_iff.mp hKey
    obtain ⟨hOver, hMore⟩ := laidOver_of_mem_tables hAfter (Entries.mem_of_lookup hGrown)
    rw [hEmission, Emission.passesOn_append, List.map_append] at hOver hMore
    refine ⟨grown, hGrown, hLaid.growsInto hOver ?_⟩
    rw [hContentTypes, hMore]
    exact List.prefix_append _ _
  · intro name
    rw [get_languageKeys hBefore, get_languageKeys hAfter, hEmission]
    exact filter_name_prefix (List.prefix_append _ _) name
  · intro table
    rw [referencesTo_of_compile hBefore, referencesTo_of_compile hAfter, hEmission]
    exact filter_name_prefix (List.prefix_append _ _) table

end Run

/-- A gallery, and then a list that is shown next to it in the same table. -/
theorem growsInto_of_compile_conditionalList :
    ∃ before after, compile galleryEnvironment [gallery] = .ok before ∧
      compile galleryEnvironment ([gallery] ++ [conditionalList]) = .ok after ∧
        before.GrowsInto after := by
  have hSome : (compile galleryEnvironment ([gallery] ++ [conditionalList])).toOption.isSome =
      true := by
    decide +kernel
  obtain ⟨after, hAfter⟩ := exists_eq_ok_of_isSome hSome
  obtain ⟨before, hBefore, hGrows⟩ := growsInto_of_compile hAfter
  exact ⟨before, after, hBefore, hAfter, hGrows⟩

end ContentSchema
