import ContentSchema.Proofs.Run.Listings
import ContentSchema.Proofs.Run.ReferenceMap

/-!
# Order and number of passes

Every document and every collection with nested nodes makes one pass, every pass
one content type.  The tables of a result are those of the passes, each where the
first pass on it starts.

* `length_runTables` counts the passes of a run by its documents.
* `perm_contentTypes` says that the content types are those of the passes.
* `listsPasses_of_compile` puts order and counts together.

A table that collections only refer to, without nested nodes, is NOT listed.
-/

namespace ContentSchema

/-! ## Counting passes -/

/-- Items grouped under different names are those with one of the names. -/
theorem perm_flatMap_filter {α : Type} (name : α → String) (items : List α)
    {names : List String} (hNames : names.Nodup) :
    (names.flatMap fun first => items.filter fun item => name item = first).Perm
      (items.filter fun item => name item ∈ names) := by
  induction names with
  | nil => simp
  | cons first rest ih =>
      obtain ⟨hFirst, hRest⟩ := List.nodup_cons.mp hNames
      let listed := items.filter fun item => name item ∈ first :: rest
      have hGroup : (listed.filter fun item => name item = first) =
          items.filter fun item => name item = first := by
        rw [List.filter_filter]
        refine List.filter_congr fun item _ => ?_
        by_cases hName : name item = first <;> simp [hName]
      have hOthers : (listed.filter fun item => !decide (name item = first)) =
          items.filter fun item => name item ∈ rest := by
        rw [List.filter_filter]
        refine List.filter_congr fun item _ => ?_
        by_cases hName : name item = first
        · simp [hName, hFirst]
        · simp [hName]
      have hSplit := List.filter_append_perm (fun item => decide (name item = first)) listed
      rw [hGroup, hOthers] at hSplit
      rw [List.flatMap_cons]
      exact ((ih hRest).append_left _).trans hSplit

namespace SchemaDocument

/-- Documents that all have a pass have one site each. -/
theorem length_rootSites {environment : Environment} {typeFields : Entries String}
    {documents : List SchemaDocument}
    (hDocuments : ∀ document ∈ documents,
      ∃ context, PassContext.ofDocument environment document = .ok context) :
    (rootSites environment typeFields documents).length = documents.length := by
  induction documents generalizing typeFields with
  | nil => rfl
  | cons document rest ih =>
      obtain ⟨context, hContext⟩ := hDocuments document List.mem_cons_self
      have hSite : ∃ site, document.rootSite? environment typeFields = some site :=
        ⟨_, rootSite?_eq_some_iff.mpr ⟨context, hContext, rfl⟩⟩
      obtain ⟨site, hSite⟩ := hSite
      have hRest : (rootSites environment (declare typeFields document) rest).length =
          rest.length :=
        ih fun other hOther => hDocuments other (List.mem_cons_of_mem _ hOther)
      rw [rootSites, hSite, List.length_append, hRest, List.length_cons, Option.toList_some,
        List.length_singleton, Nat.add_comm]

end SchemaDocument

/-- The tables of sites are their own and those of their collections with nested
nodes. -/
theorem length_flatMap_startTables (sites : List Site) :
    (sites.flatMap Site.startTables).length =
      sites.length +
        ((sites.flatMap Site.collections).filter CollectionField.embeds).length := by
  induction sites with
  | nil => rfl
  | cons site rest ih =>
      have hHere : site.startTables.length =
          1 + (site.collections.filter CollectionField.embeds).length := by
        rw [Site.startTables, List.length_cons, List.length_map, Nat.add_comm]
      rw [List.flatMap_cons, List.flatMap_cons, List.length_append, List.filter_append,
        List.length_append, List.length_cons, ih, hHere]
      omega

section Run

variable {environment : Environment} {documents : List SchemaDocument} {result : CompiledResult}

/-- A run that succeeds makes a pass for each document and for each collection
with nested nodes. -/
theorem length_runTables (hRun : (runWalk environment documents).result = .ok ()) :
    (runTables environment documents).length =
      documents.length +
        ((runCollections environment documents).filter CollectionField.embeds).length := by
  rw [runTables, length_flatMap_startTables, runCollections]
  rw [SchemaDocument.length_rootSites fun document hDocument =>
    (SchemaDocument.valid_of_compileAll hRun hDocument).2]

/-- A table has one content type for each pass on it. -/
theorem length_contentTypesOf (hResult : compile environment documents = .ok result)
    (table : String) :
    (result.contentTypesOf table).length =
      ((runWalk environment documents).emission.passesOn table).length := by
  rw [contentTypesOf_of_compile hResult, List.length_map]

theorem keys_tables_eq_runTables (hResult : compile environment documents = .ok result) :
    Entries.keys result.tables = (runTables environment documents).eraseDups := by
  obtain ⟨hRun, _⟩ := compile_eq_ok_iff.mp hResult
  rw [keys_tables_of_compile hResult, opened_runTables hRun]

/-- The content types of all tables are those of the passes of the run. -/
theorem perm_contentTypes (hResult : compile environment documents = .ok result) :
    (result.tables.flatMap fun entry => entry.2.contentTypes).Perm
      ((runWalk environment documents).emission.passes.map Pass.contentType) := by
  obtain ⟨hRun, _⟩ := compile_eq_ok_iff.mp hResult
  have hKeys := keys_tables_eq_runTables hResult
  have hDistinct : Entries.Distinct result.tables := by
    rw [Entries.Distinct, hKeys]
    exact Entries.nodup_eraseDups _
  have hEach : ∀ entry ∈ result.tables, entry.2.contentTypes =
      ((runWalk environment documents).emission.passesOn entry.1).map Pass.contentType := by
    intro entry hEntry
    have hLookup : result.table? entry.1 = some entry.2 :=
      (Entries.mem_iff_lookup hDistinct).mp hEntry
    rw [← contentTypesOf_of_compile hResult, CompiledResult.contentTypesOf, hLookup]
    rfl
  -- Every pass is on one of the tables, so that grouping the passes loses none.
  have hAll : ((runWalk environment documents).emission.passes.filter fun pass =>
      pass.context.table ∈ Entries.keys result.tables) =
        (runWalk environment documents).emission.passes := by
    rw [List.filter_eq_self]
    intro pass hPass
    have hOpened := (perm_opened hRun).mem_iff.mpr (List.mem_map_of_mem hPass)
    rw [opened_runTables hRun] at hOpened
    rw [decide_eq_true_iff, hKeys, List.mem_eraseDups]
    exact hOpened
  have hGroups := perm_flatMap_filter (fun pass : Pass => pass.context.table)
    (runWalk environment documents).emission.passes hDistinct
  rw [hAll] at hGroups
  have hTypes : (result.tables.flatMap fun entry => entry.2.contentTypes) =
      ((Entries.keys result.tables).flatMap fun table =>
        (runWalk environment documents).emission.passesOn table).map Pass.contentType := by
    rw [List.map_flatMap, Entries.keys, List.flatMap_map]
    exact List.flatMap_congr hEach
  rw [hTypes]
  exact hGroups.map Pass.contentType

/-- The content types of all tables are as many as the documents and the
collections with nested nodes. -/
theorem length_contentTypes (hResult : compile environment documents = .ok result) :
    (result.tables.flatMap fun entry => entry.2.contentTypes).length =
      documents.length +
        ((runCollections environment documents).filter CollectionField.embeds).length := by
  obtain ⟨hRun, _⟩ := compile_eq_ok_iff.mp hResult
  have hPasses := (perm_opened hRun).length_eq
  rw [opened_runTables hRun, List.length_map] at hPasses
  rw [(perm_contentTypes hResult).length_eq, List.length_map, ← hPasses, length_runTables hRun]

theorem mem_runTables_iff {table : String} :
    table ∈ runTables environment documents ↔
      (∃ site ∈ SchemaDocument.rootSites environment [] documents, site.context.table = table) ∨
        ∃ collection ∈ runCollections environment documents,
          collection.embeds = true ∧ collection.childTable = table := by
  simp only [runTables, runCollections, List.mem_flatMap, Site.startTables, List.mem_cons,
    List.mem_map, List.mem_filter]
  constructor
  · rintro ⟨site, hSite, rfl | ⟨collection, ⟨hBelow, hEmbeds⟩, hTable⟩⟩
    · exact .inl ⟨site, hSite, rfl⟩
    · exact .inr ⟨collection, ⟨site, hSite, hBelow⟩, hEmbeds, hTable⟩
  · rintro (⟨site, hSite, rfl⟩ | ⟨collection, ⟨site, hSite, hBelow⟩, hEmbeds, hTable⟩)
    · exact ⟨site, hSite, .inl rfl⟩
    · exact ⟨site, hSite, .inr ⟨collection, ⟨hBelow, hEmbeds⟩, hTable⟩⟩

end Run

/-! ## The tables of a result -/

/-- The tables of a result are those of the passes of its run, and the content
types of a table are as many as the passes on it. -/
structure CompiledResult.ListsPasses (result : CompiledResult) (environment : Environment)
    (documents : List SchemaDocument) : Prop where
  /-- The passes start on the tables that the documents tell, in this order. -/
  starts : (runWalk environment documents).emission.opened = runTables environment documents
  /-- A table is listed where the first pass on it starts. -/
  order : Entries.keys result.tables = (runTables environment documents).eraseDups
  distinct : (Entries.keys result.tables).Nodup
  /-- The table of a collection starts after the one that the collection is in. -/
  nested : ∀ collection ∈ runCollections environment documents, collection.embeds = true →
    [collection.context.table, collection.childTable].Sublist (runTables environment documents)
  written : ∀ table, table ∈ Entries.keys result.tables ↔
    ∃ pass ∈ (runWalk environment documents).emission.passes, pass.context.table = table
  counted : ∀ table, (result.contentTypesOf table).length =
    ((runWalk environment documents).emission.passesOn table).length
  conserved : (result.tables.flatMap fun entry => entry.2.contentTypes).Perm
    ((runWalk environment documents).emission.passes.map Pass.contentType)
  total : (result.tables.flatMap fun entry => entry.2.contentTypes).length =
    documents.length +
      ((runCollections environment documents).filter CollectionField.embeds).length
  /-- A table that is only referred to is not listed. -/
  external : ∀ table,
    (∀ site ∈ SchemaDocument.rootSites environment [] documents, site.context.table ≠ table) →
      (∀ collection ∈ runCollections environment documents,
        collection.childTable = table → collection.embeds = false) →
      table ∉ Entries.keys result.tables

/-- A result lists the tables of its passes in the order in which they start, and
one content type for each pass. -/
theorem listsPasses_of_compile {environment : Environment} {documents : List SchemaDocument}
    {result : CompiledResult} (hResult : compile environment documents = .ok result) :
    result.ListsPasses environment documents := by
  obtain ⟨hRun, _⟩ := compile_eq_ok_iff.mp hResult
  have hKeys := keys_tables_eq_runTables hResult
  have hMem (table : String) :
      table ∈ Entries.keys result.tables ↔ table ∈ runTables environment documents := by
    rw [hKeys, List.mem_eraseDups]
  refine
    { starts := opened_runTables hRun
      order := hKeys
      distinct := hKeys ▸ Entries.nodup_eraseDups _
      nested := fun _ hCollection hEmbeds => sublist_runTables hRun hCollection hEmbeds
      written := ?_
      counted := length_contentTypesOf hResult
      conserved := perm_contentTypes hResult
      total := length_contentTypes hResult
      external := ?_ }
  · intro table
    rw [hMem, ← opened_runTables hRun, (perm_opened hRun).mem_iff, List.mem_map]
  · intro table hRoots hCollections hTable
    rcases mem_runTables_iff.mp ((hMem table).mp hTable) with
      ⟨site, hSite, hHere⟩ | ⟨collection, hCollection, hEmbeds, hHere⟩
    · exact hRoots site hSite hHere
    · rw [hCollections collection hCollection hHere] at hEmbeds
      contradiction

/-- The rule for two documents with three collections that share a table and one
with an external table. -/
theorem listsPasses_of_compile_linkBoard :
    ∃ result, compile galleryEnvironment [linkLists, linkBoard] = .ok result ∧
      runTables galleryEnvironment [linkLists, linkBoard] =
        ["tt_content", "acme_list_left", "links", "acme_list_right", "links", "tt_content",
          "acme_board_columns", "links"] ∧
      result.ListsPasses galleryEnvironment [linkLists, linkBoard] := by
  have hSome : (compile galleryEnvironment [linkLists, linkBoard]).toOption.isSome = true := by
    decide +kernel
  obtain ⟨result, hResult⟩ := exists_eq_ok_of_isSome hSome
  exact ⟨result, hResult, by decide +kernel, listsPasses_of_compile hResult⟩

end ContentSchema
