import ContentSchema.Proofs.Pass.Columns
import ContentSchema.Proofs.Run.Sites

/-!
# Discriminator columns

A record type gets the discriminator column that it names, unless the column is
known: the base schema describes it, or the first document on the table that
declares a discriminator declares this one.  A column with that identifier among
the nodes of the document, or directly inside one of them, counts as authored as
well, whatever it is a node of.

* `SchemaDocument.firstTypeField?` is the discriminator that is known of a table
  after some documents.
* `ColumnSource` lists where a column of a table comes from.
* `columnSource_iff_of_compile` says that a discriminator column exists exactly
  if it has a source.

That a record type declares a discriminator is NOT among the sources: a node
inside a collection is enough to leave the column out.
-/

namespace ContentSchema

/-! ## Known discriminators -/

namespace SchemaDocument

/-- What a document declares for a table. -/
def typeFieldOn (table : String) (document : SchemaDocument) : Option String :=
  if document.tableName = some table then document.typeFieldName else none

/-- The discriminator column declared first for a table. -/
def firstTypeField? (documents : List SchemaDocument) (table : String) : Option String :=
  documents.findSome? (typeFieldOn table)

/-- A declaration counts unless there was one before it. -/
theorem lookup_declare {document : SchemaDocument}
    (hNonempty : document.tableName.filter (fun table => !table.isEmpty) = document.tableName)
    (typeFields : Entries String) (table : String) :
    (declare typeFields document).lookup table =
      (typeFields.lookup table).or (typeFieldOn table document) := by
  rw [lookup_declare_eq, hNonempty]
  rfl

theorem lookup_foldl_declare {documents : List SchemaDocument}
    (hNonempty : ∀ document ∈ documents,
      document.tableName.filter (fun table => !table.isEmpty) = document.tableName)
    (typeFields : Entries String) (table : String) :
    (documents.foldl declare typeFields).lookup table =
      (typeFields.lookup table).or (firstTypeField? documents table) := by
  induction documents generalizing typeFields with
  | nil => simp [firstTypeField?]
  | cons document rest ih =>
      rw [List.forall_mem_cons] at hNonempty
      rw [List.foldl_cons, ih hNonempty.2, lookup_declare hNonempty.1, Option.or_assoc]
      unfold firstTypeField?
      rw [List.findSome?_cons]
      cases typeFieldOn table document <;> rfl

end SchemaDocument

/-! ## Added nodes -/

namespace PassContext

variable {context : PassContext}

/-- The added discriminator column is a field of the pass if select fields are
fields. -/
theorem mem_ownFields_discriminatorField_iff {typeField typeName : String} {node : FieldNode} :
    node ∈ context.ownFields (context.discriminatorField typeField typeName) ↔
      node = context.discriminatorField typeField typeName ∧
        ∀ type, context.environment.catalog.find? "Select" = some type →
          type.kind ≠ .palette ∧ type.kind ≠ .tab := by
  have hKind : context.kindOf? (context.discriminatorField typeField typeName) =
      (context.environment.catalog.find? "Select").map TypeDescriptor.kind := rfl
  unfold ownFields
  rw [hKind]
  cases context.environment.catalog.find? "Select" with
  | none => simp
  | some type =>
      simp only [Option.map_some, Option.some.injEq, forall_eq']
      cases type.kind with
      -- As a palette it would have no fields, and a tab is none.
      | palette => simp [paletteFields, discriminatorField, FieldNode.ofType]
      | tab => simp
      | ordinary => simp
      | linebreak => simp
      | collection => simp
      | flexForm => simp

/-- The added discriminator column keeps its name. -/
theorem fieldName_discriminatorField {typeField : String} (typeName : String)
    (hField : context.typeField = some typeField) :
    context.fieldName (context.discriminatorField typeField typeName) = typeField := by
  have hPlain : ¬context.FieldApart (context.discriminatorField typeField typeName) :=
    fun hApart => hApart.1 hField
  unfold fieldName nameOf
  rw [if_neg hPlain]
  rfl

/-- The fields among the added nodes of a pass. -/
theorem mem_fieldNodes_addedNodes_iff {typeFields : Entries String} {node : FieldNode} :
    node ∈ context.fieldNodes (context.addedNodes typeFields) ↔
      (context.kind = .recordType ∧ ∃ typeField typeName, context.typeField = some typeField ∧
        context.typeName = some typeName ∧
        typeField ∉ shallowIdentifiers context.document.fields ∧
        context.knowsTypeField typeFields typeField = false ∧
        node ∈ context.ownFields (context.discriminatorField typeField typeName)) ∨
      (context.kind = .pageType ∧ node ∈ context.ownFields pageTitlePalette) := by
  unfold addedNodes fieldNodes
  split
  case h_1 typeField typeName hKind hField hName =>
    rw [hKind, hField, hName]
    by_cases hKnown : typeField ∉ shallowIdentifiers context.document.fields ∧
        context.knowsTypeField typeFields typeField = false
    · have hAdds : ¬((shallowIdentifiers context.document.fields).contains typeField ||
          context.knowsTypeField typeFields typeField) = true := by simpa using hKnown
      rw [if_neg hAdds]
      simp [hKnown]
    · have hNone : ((shallowIdentifiers context.document.fields).contains typeField ||
          context.knowsTypeField typeFields typeField) = true := by
        by_contra hAdds
        exact hKnown (by simpa using hAdds)
      rw [if_pos hNone]
      constructor
      · intro hNode
        contradiction
      · rintro (⟨_, _, _, hSame, _, hFree, hNew, _⟩ | ⟨hPage, _⟩)
        · obtain rfl := Option.some.inj hSame
          exact absurd ⟨hFree, hNew⟩ hKnown
        · contradiction
  case h_2 hKind => simp [hKind]
  case h_3 hPage hRecord =>
    constructor
    · intro hNode
      contradiction
    · rintro (⟨hKind, typeField, typeName, hField, hName, _⟩ | ⟨hKind, _⟩)
      · exact (hRecord typeField typeName hKind hField hName).elim
      · exact absurd hKind hPage

end PassContext

/-! ## Sources -/

/-- Where a column of a table comes from, for columns that the base schema does
not describe. -/
inductive ColumnSource (environment : Environment) (documents : List SchemaDocument)
    (table column : String) : Prop where
  /-- It is authored in a document on the table, outside of collections. -/
  | document {document : SchemaDocument} {context : PassContext} {node : FieldNode}
      (hDocument : document ∈ documents) (hTable : document.tableName = some table)
      (hReads : PassContext.ofDocument environment document = .ok context)
      (hNode : node ∈ context.fieldNodes document.fields)
      (hName : context.fieldName node = column)
  /-- It is authored in a collection that writes the table. -/
  | collection {inner : Pass} {node : FieldNode}
      (hInner : inner ∈ (runWalk environment documents).emission.passes)
      (hEmbedded : inner.EmbeddedIn (runWalk environment documents).emission.passes)
      (hTable : inner.context.table = table) (hNode : node ∈ inner.site.fields)
      (hName : inner.context.fieldName node = column)
  /-- It belongs to the title that every page type on the table gets. -/
  | pageTitle {document : SchemaDocument} {context : PassContext} {node : FieldNode}
      (hDocument : document ∈ documents) (hTable : document.tableName = some table)
      (hKind : document.kind = .pageType)
      (hReads : PassContext.ofDocument environment document = .ok context)
      (hNode : node ∈ context.ownFields PassContext.pageTitlePalette)
      (hName : context.fieldName node = column)
  /-- It is the discriminator of a record type on the table, where no node of the
  document or directly inside one is named so and no document before declared it
  first, and select fields are fields. -/
  | discriminator {before after : List SchemaDocument} {document : SchemaDocument}
      (hSplit : documents = before ++ document :: after)
      (hTable : document.tableName = some table) (hKind : document.kind = .recordType)
      (hField : document.typeFieldName = some column)
      (hFree : column ∉ PassContext.shallowIdentifiers document.fields)
      (hFirst : SchemaDocument.firstTypeField? before table ≠ some column)
      (hSelect : ∀ type, environment.catalog.find? "Select" = some type →
        type.kind ≠ .palette ∧ type.kind ≠ .tab)

/-- A field of the document, in a palette or not, is authored with the identifier
of the column. -/
def SchemaDocument.AuthorsColumn (document : SchemaDocument) (environment : Environment)
    (column : String) : Prop :=
  ∃ context node, PassContext.ofDocument environment document = .ok context ∧
    node ∈ context.fieldNodes document.fields ∧ node.identifierText = column

/-- The document is a record type that declares the column as discriminator of
the table, and whatever stands for the column among its nodes is a field. -/
structure SchemaDocument.Declares (document : SchemaDocument) (environment : Environment)
    (table column : String) : Prop where
  table : document.tableName = some table
  kind : document.kind = .recordType
  field : document.typeFieldName = some column
  authored : column ∈ PassContext.shallowIdentifiers document.fields →
    document.AuthorsColumn environment column

section Run

variable {environment : Environment} {documents : List SchemaDocument} {result : CompiledResult}

/-- A pass lists the columns that its fields are named. -/
theorem Pass.Compiled.mem_keys_fields_iff {pass : Pass} (hPass : pass.Compiled)
    {column : String} :
    column ∈ Entries.keys pass.table.fields ↔
      ∃ node ∈ pass.site.fields, pass.context.fieldName node = column := by
  rw [hPass.keys_fields, hPass.map_uniqueIdentifier, List.mem_eraseDups, List.mem_map]
  rfl

/-- A table lists the columns that are fields of the passes on it. -/
theorem mem_keys_fields_iff_of_compile (hResult : compile environment documents = .ok result)
    {name : String} {table : TableDefinition} (hTable : result.tables.lookup name = some table)
    {column : String} :
    column ∈ Entries.keys table.fields ↔
      ∃ pass ∈ (runWalk environment documents).emission.passes, pass.context.table = name ∧
        ∃ node ∈ pass.site.fields, pass.context.fieldName node = column := by
  have hLaid := (laidOver_of_mem_tables hResult (Entries.mem_of_lookup hTable)).1
  rw [hLaid.fieldNames, List.mem_eraseDups, List.mem_flatMap]
  constructor
  · rintro ⟨_, hPart, hColumn⟩
    obtain ⟨pass, hOn, rfl⟩ := List.mem_map.mp hPart
    obtain ⟨hPass, hName⟩ := List.mem_filter.mp hOn
    exact ⟨pass, hPass, of_decide_eq_true hName,
      (compiled_of_mem_passes hPass).mem_keys_fields_iff.mp hColumn⟩
  · rintro ⟨pass, hPass, hName, hNode⟩
    exact ⟨pass.table, List.mem_map_of_mem (List.mem_filter.mpr ⟨hPass, decide_eq_true hName⟩),
      (compiled_of_mem_passes hPass).mem_keys_fields_iff.mpr hNode⟩

/-- What a pass of a run knows of a discriminator. -/
theorem knowsTypeField_eq_false_iff (hRun : (runWalk environment documents).result = .ok ())
    {before after : List SchemaDocument} {document : SchemaDocument}
    (hSplit : documents = before ++ document :: after) {context : PassContext}
    (hReads : PassContext.ofDocument environment document = .ok context) {column : String} :
    context.knowsTypeField (before.foldl SchemaDocument.declare []) column = false ↔
      environment.baseSchema.has context.table column = false ∧
        SchemaDocument.firstTypeField? before context.table ≠ some column := by
  have hNonempty : ∀ earlier ∈ before,
      earlier.tableName.filter (fun table => !table.isEmpty) = earlier.tableName := by
    intro earlier hEarlier
    have hMem : earlier ∈ documents := by
      rw [hSplit]
      exact List.mem_append_left _ hEarlier
    obtain ⟨_, _, hContext⟩ := SchemaDocument.valid_of_compileAll hRun hMem
    obtain ⟨table, _, hTable, _⟩ := PassContext.ofDocument_eq_ok_iff.mp hContext
    rw [hTable, (Option.filter_eq_some_iff.mp hTable).1]
  obtain ⟨_, _, _, _, rfl⟩ := PassContext.ofDocument_eq_ok_iff.mp hReads
  unfold PassContext.knowsTypeField
  rw [SchemaDocument.lookup_foldl_declare hNonempty, Bool.or_eq_false_iff, decide_eq_false_iff_not]
  rfl

/-- Every field of the pass over a document, added or authored, is a source of its
column. -/
theorem columnSource_of_own {before after : List SchemaDocument} {document : SchemaDocument}
    (hRun : (runWalk environment documents).result = .ok ())
    (hSplit : documents = before ++ document :: after) {context : PassContext}
    (hReads : PassContext.ofDocument environment document = .ok context) {column : String}
    (hBase : environment.baseSchema.has context.table column = false) {node : FieldNode}
    (hNode : node ∈ context.fieldNodes
      (document.rootNodes context (before.foldl SchemaDocument.declare [])))
    (hName : context.fieldName node = column) :
    ColumnSource environment documents context.table column := by
  have hDocument : document ∈ documents := by
    rw [hSplit]
    simp
  have hTable := (PassContext.tableName_of_ofDocument hReads).1
  -- A node of the pass is an added or an authored one.
  rw [PassContext.fieldNodes, SchemaDocument.rootNodes, List.flatMap_append,
    List.mem_append] at hNode
  rcases hNode with hAdded | hAuthored
  · rcases PassContext.mem_fieldNodes_addedNodes_iff.mp hAdded with
      ⟨hKind, typeField, typeName, hField, _, hFree, hNew, hOwn⟩ | ⟨hKind, hOwn⟩
    · obtain ⟨rfl, hSelect⟩ := PassContext.mem_ownFields_discriminatorField_iff.mp hOwn
      rw [PassContext.fieldName_discriminatorField typeName hField] at hName
      subst hName
      obtain ⟨_, hFirst⟩ := (knowsTypeField_eq_false_iff hRun hSplit hReads).mp hNew
      obtain ⟨_, _, _, _, rfl⟩ := PassContext.ofDocument_eq_ok_iff.mp hReads
      exact .discriminator hSplit hTable hKind hField hFree hFirst hSelect
    · have hPage : document.kind = .pageType :=
        (PassContext.ofDocument_of_eq_ok hReads).kind.symm.trans hKind
      exact .pageTitle hDocument hTable hPage hReads hOwn hName
  · exact .document hDocument hTable hReads hAuthored hName

/-- A field of the own pass of a document is added or authored, and a pass has it. -/
theorem exists_own_pass_with_field (hRun : (runWalk environment documents).result = .ok ())
    {before after : List SchemaDocument} {document : SchemaDocument} {context : PassContext}
    {node : FieldNode} {table column : String} (hSplit : documents = before ++ document :: after)
    (hTable : document.tableName = some table)
    (hReads : PassContext.ofDocument environment document = .ok context)
    (hNode : node ∈ context.fieldNodes
      (context.addedNodes (before.foldl SchemaDocument.declare [])) ∨
        node ∈ context.fieldNodes document.fields)
    (hName : context.fieldName node = column) :
    ∃ pass ∈ (runWalk environment documents).emission.passes, pass.context.table = table ∧
      ∃ node ∈ pass.site.fields, pass.context.fieldName node = column := by
  obtain ⟨own, hMem, hOwnReads, hNodes⟩ := exists_own_pass hRun hSplit
  obtain rfl : own.context = context := Except.ok.inj (hOwnReads.symm.trans hReads)
  have hOwnTable := (PassContext.tableName_of_ofDocument hReads).1
  refine ⟨own, hMem, Option.some.inj (hOwnTable.symm.trans hTable), node, ?_, hName⟩
  show node ∈ own.context.fieldNodes own.nodes
  rw [hNodes, PassContext.fieldNodes, SchemaDocument.rootNodes, List.flatMap_append]
  exact List.mem_append.mpr hNode

/-- Every source of a column leads to a pass with a field of that name. -/
theorem ColumnSource.exists_pass (hRun : (runWalk environment documents).result = .ok ())
    {table column : String} (hBase : environment.baseSchema.has table column = false)
    (hSource : ColumnSource environment documents table column) :
    ∃ pass ∈ (runWalk environment documents).emission.passes, pass.context.table = table ∧
      ∃ node ∈ pass.site.fields, pass.context.fieldName node = column := by
  cases hSource with
  | document hDocument hTable hReads hNode hName =>
      obtain ⟨before, after, hSplit⟩ := List.append_of_mem hDocument
      exact exists_own_pass_with_field hRun hSplit hTable hReads (.inr hNode) hName
  | collection hInner _ hTable hNode hName => exact ⟨_, hInner, hTable, _, hNode, hName⟩
  | @pageTitle document context node hDocument hTable hKind hReads hNode hName =>
      obtain ⟨before, after, hSplit⟩ := List.append_of_mem hDocument
      have hPage : context.kind = .pageType :=
        (PassContext.ofDocument_of_eq_ok hReads).kind.trans hKind
      exact exists_own_pass_with_field hRun hSplit hTable hReads
        (.inl (PassContext.mem_fieldNodes_addedNodes_iff.mpr (.inr ⟨hPage, hNode⟩))) hName
  | @discriminator before after document hSplit hTable hKind hField hFree hFirst hSelect =>
      have hDocument : document ∈ documents := by
        rw [hSplit]
        simp
      obtain ⟨_, context, hReads⟩ := SchemaDocument.valid_of_compileAll hRun hDocument
      have hOwnTable := (PassContext.tableName_of_ofDocument hReads).1
      obtain rfl : context.table = table := Option.some.inj (hOwnTable.symm.trans hTable)
      have hNew := (knowsTypeField_eq_false_iff hRun hSplit hReads).mpr ⟨hBase, hFirst⟩
      have hOf := PassContext.ofDocument_of_eq_ok hReads
      obtain ⟨typeName, _, hTypeName⟩ := hOf.typeName
      have hTypeField : context.typeField = some column := hOf.typeField.trans hField
      have hAdded : context.discriminatorField column typeName ∈ context.fieldNodes
          (context.addedNodes (before.foldl SchemaDocument.declare [])) := by
        refine PassContext.mem_fieldNodes_addedNodes_iff.mpr (.inl ⟨hOf.kind.trans hKind, column,
          typeName, hTypeField, hTypeName, ?_, hNew, ?_⟩)
        · rw [PassContext.document_of_ofDocument hReads]
          exact hFree
        · refine PassContext.mem_ownFields_discriminatorField_iff.mpr ⟨rfl, ?_⟩
          rw [hOf.environment]
          exact hSelect
      exact exists_own_pass_with_field hRun hSplit hTable hReads (.inl hAdded)
        (PassContext.fieldName_discriminatorField typeName hTypeField)

/-- A discriminator that is authored as a field of its document keeps its name. -/
theorem columnSource_of_authorsColumn {document : SchemaDocument} (hDocument : document ∈ documents)
    {table column : String} (hTable : document.tableName = some table)
    (hField : document.typeFieldName = some column)
    (hAuthored : document.AuthorsColumn environment column) :
    ColumnSource environment documents table column := by
  obtain ⟨context, node, hReads, hNode, rfl⟩ := hAuthored
  have hPlain : ¬context.FieldApart node := fun hApart =>
    hApart.1 ((PassContext.ofDocument_of_eq_ok hReads).typeField.trans hField)
  exact .document hDocument hTable hReads hNode (if_neg hPlain)

/-- The first record type that declares a discriminator for a table is a source
of it, unless a node that is no field of the document has its name. -/
theorem columnSource_of_declares {document : SchemaDocument}
    {before after : List SchemaDocument} (hSplit : documents = before ++ document :: after)
    {table column : String} (hDeclares : document.Declares environment table column)
    (hFirst : SchemaDocument.firstTypeField? before table ≠ some column)
    (hSelect : ∀ type, environment.catalog.find? "Select" = some type →
      type.kind ≠ .palette ∧ type.kind ≠ .tab) :
    ColumnSource environment documents table column := by
  by_cases hFree : column ∈ PassContext.shallowIdentifiers document.fields
  · have hDocument : document ∈ documents := by
      rw [hSplit]
      simp
    exact columnSource_of_authorsColumn hDocument hDeclares.table hDeclares.field
      (hDeclares.authored hFree)
  · exact .discriminator hSplit hDeclares.table hDeclares.kind hDeclares.field hFree hFirst hSelect

/-- Where all documents that name the column as discriminator of the table
declare it, the column has a source. -/
theorem exists_columnSource {table column : String} {document : SchemaDocument}
    (hDocument : document ∈ documents) (hTable : document.tableName = some table)
    (hField : document.typeFieldName = some column)
    (hDeclare : ∀ other ∈ documents, other.tableName = some table →
      other.typeFieldName = some column → other.Declares environment table column)
    (hSelect : ∀ type, environment.catalog.find? "Select" = some type →
      type.kind ≠ .palette ∧ type.kind ≠ .tab) :
    ColumnSource environment documents table column := by
  obtain ⟨before, after, hSplit⟩ := List.append_of_mem hDocument
  by_cases hFirst : SchemaDocument.firstTypeField? before table = some column
  · -- Then some document before is the first to declare anything for the table, and
    -- that one is not kept from adding the column by any other.
    obtain ⟨earlier, first, between, hBefore, hHere, hNone⟩ :=
      List.findSome?_eq_some_iff.mp hFirst
    have hOn : first.tableName = some table ∧ first.typeFieldName = some column := by
      unfold SchemaDocument.typeFieldOn at hHere
      split at hHere
      case isTrue hOn => exact ⟨hOn, hHere⟩
      case isFalse => contradiction
    have hSplit' : documents = earlier ++ first :: (between ++ document :: after) := by
      rw [hSplit, hBefore, List.append_assoc, List.cons_append]
    have hMem : first ∈ documents := by
      rw [hSplit']
      simp
    have hEarlier : SchemaDocument.firstTypeField? earlier table ≠ some column := by
      unfold SchemaDocument.firstTypeField?
      rw [List.findSome?_eq_none_iff.mpr hNone]
      exact Option.some_ne_none column |>.symm
    exact columnSource_of_declares hSplit' (hDeclare first hMem hOn.1 hOn.2) hEarlier hSelect
  · exact columnSource_of_declares hSplit (hDeclare document hDocument hTable hField) hFirst
      hSelect

/-- A record type that declares a discriminator has a table in the result.  Where
the base schema does not describe the column, the table lists it exactly if it
has a source, and it has one where all documents that name it as discriminator
of the table declare it. -/
theorem columnSource_iff_of_compile (hResult : compile environment documents = .ok result)
    {document : SchemaDocument} (hDocument : document ∈ documents) {column name : String}
    (hField : document.typeFieldName = some column) (hName : document.tableName = some name)
    (hBase : environment.baseSchema.has name column = false) :
    ∃ table, result.tables.lookup name = some table ∧
      (column ∈ Entries.keys table.fields ↔ ColumnSource environment documents name column) ∧
      ((∀ other ∈ documents, other.tableName = some name →
          other.typeFieldName = some column → other.Declares environment name column) →
        (∀ type, environment.catalog.find? "Select" = some type →
          type.kind ≠ .palette ∧ type.kind ≠ .tab) →
        column ∈ Entries.keys table.fields) := by
  obtain ⟨hRun, _⟩ := compile_eq_ok_iff.mp hResult
  obtain ⟨before, after, hSplit⟩ := List.append_of_mem hDocument
  obtain ⟨own, hOwn, hReads, _⟩ := exists_own_pass hRun hSplit
  have hOwnTable := (PassContext.tableName_of_ofDocument hReads).1
  obtain rfl : own.context.table = name := Option.some.inj (hOwnTable.symm.trans hName)
  obtain ⟨table, hTable⟩ := exists_lookup_of_mem_passes hResult hOwn
  have hListed : column ∈ Entries.keys table.fields ↔
      ColumnSource environment documents own.context.table column := by
    rw [mem_keys_fields_iff_of_compile hResult hTable]
    constructor
    · rintro ⟨pass, hPass, hOn, node, hNode, hFinal⟩
      -- The pass that lists the column is that of a document or one of a collection.
      rcases own_or_embedded_of_mem_passes hRun hPass with
        ⟨earlier, other, later, hOther, hOtherReads, hNodes⟩ | hEmbedded
      · change node ∈ pass.context.fieldNodes pass.nodes at hNode
        rw [hNodes] at hNode
        rw [← hOn] at hBase ⊢
        exact columnSource_of_own hRun hOther hOtherReads hBase hNode hFinal
      · exact .collection hPass hEmbedded hOn hNode hFinal
    · exact ColumnSource.exists_pass hRun hBase
  refine ⟨table, hTable, hListed, fun hDeclare hSelect => hListed.mpr ?_⟩
  exact exists_columnSource hDocument hName hField hDeclare hSelect

end Run

/-- A catalog with collections, select fields and texts, and no existing column. -/
def vehicleEnvironment : Environment where
  catalog :=
    ⟨[ { name := "Collection", kind := .collection, storage := .inline },
       { name := "Select", storage := .select, items := .byValue },
       { name := "Text", storage := .input } ]⟩
  baseSchema := .empty

/-- A record type whose collection has a field of the name of its discriminator. -/
def car : SchemaDocument where
  name := "acme/car"
  kind := .recordType
  table := some "tx_vehicle"
  typeField := some "type"
  fields :=
    [{ FieldNode.ofType "parts" "Collection" with fields := [.ofType "type" "Text"] }]

/-- The table names its discriminator column, and does not list it. -/
theorem discriminator_not_listed_car :
    vehicleEnvironment.baseSchema.has "tx_vehicle" "type" = false ∧
      ((compile vehicleEnvironment [car]).toOption.map fun result =>
        (result.table? "tx_vehicle").map fun table =>
          (table.typeField, Entries.keys table.fields)) =
        some (some (some "type", ["acme_car_parts"])) := by
  refine ⟨by decide, by decide +kernel⟩

/-- A record type without such a field. -/
def bicycle : SchemaDocument where
  name := "acme/bicycle"
  kind := .recordType
  table := some "tx_vehicle"
  typeField := some "type"
  fields := [.ofType "gears" "Text"]

/-- The discriminator of that record type is listed. -/
theorem columnSource_iff_of_compile_bicycle :
    ∃ result table, compile vehicleEnvironment [bicycle] = .ok result ∧
      result.tables.lookup "tx_vehicle" = some table ∧ "type" ∈ Entries.keys table.fields := by
  obtain ⟨result, hResult⟩ := exists_eq_ok_of_isSome
    (by decide +kernel : (compile vehicleEnvironment [bicycle]).toOption.isSome = true)
  have hBase : vehicleEnvironment.baseSchema.has "tx_vehicle" "type" = false := by decide
  obtain ⟨table, hTable, _, hListed⟩ := columnSource_iff_of_compile hResult
    (List.mem_singleton.mpr rfl) (rfl : bicycle.typeFieldName = some "type")
    (rfl : bicycle.tableName = some "tx_vehicle") hBase
  refine ⟨result, table, hResult, hTable, hListed ?_ ?_⟩
  · intro other hOther _ _
    obtain rfl := List.mem_singleton.mp hOther
    have hFree : "type" ∉ PassContext.shallowIdentifiers bicycle.fields := by decide
    exact ⟨rfl, rfl, rfl, fun hFound => absurd hFound hFree⟩
  · intro type hType
    have hSelect : vehicleEnvironment.catalog.find? "Select" =
        some { name := "Select", storage := .select, items := .byValue } := by decide
    obtain rfl := Option.some.inj (hSelect.symm.trans hType)
    decide

end ContentSchema
