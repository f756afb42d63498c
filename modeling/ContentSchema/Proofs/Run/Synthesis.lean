import ContentSchema.Proofs.Pass.Identifiers
import ContentSchema.Proofs.Pass.Positions
import ContentSchema.Proofs.Run.ChildTables
import ContentSchema.Proofs.Run.Discriminators
import ContentSchema.Proofs.Run.FieldLabels
import ContentSchema.Proofs.Run.ParentReferences

/-!
# Added discriminators

A record type that declares a discriminator and has no node of that name gets a
field for it, unless the column is known.  What is known of a table is the one
discriminator that is declared first for it, so a column may well be added by
several documents: it is added once exactly if nothing is declared for the table
before the first document that adds it.

* `SchemaDocument.DeclaresOnly` is a record type of this kind.
* `SchemaDocument.Synthesizes` says that a document adds the field.
* `synthesizes_iff`, `contributes_iff` and `synthesizes_once_iff` tell who adds
  it, who contributes it, and when it is added once.
* `lookup_default_of_synthesizes` says whose default the merged field has.
* `discriminatorRules_of_compile` puts these together.

That a table has the column already does NOT keep a document from adding it
again.
-/

namespace ContentSchema

namespace SchemaDocument

/-- A record type that declares the column as discriminator of the table, and has
no node of that name at any depth. -/
structure DeclaresOnly (document : SchemaDocument) (table column : String) : Prop where
  table : document.tableName = some table
  kind : document.kind = .recordType
  field : document.typeFieldName = some column
  absent : column ∉ FieldNode.allIdentifiers document.fields

/-- Compiled after the documents `before`, the document adds a field for its
discriminator in front of its own nodes. -/
def Synthesizes (document : SchemaDocument) (environment : Environment)
    (before : List SchemaDocument) (column : String) : Prop :=
  ∃ context typeName, PassContext.ofDocument environment document = .ok context ∧
    document.resolvedTypeName = .ok typeName ∧
    document.rootNodes context (before.foldl declare []) =
      context.discriminatorField column typeName :: document.fields

/-- The passes of the document, compiled after the documents `before`. -/
def passesAfter (document : SchemaDocument) (environment : Environment)
    (before : List SchemaDocument) : List Pass :=
  (document.compile environment (before.foldl declare [])).emission.passes

/-- A pass of the document contributes the column to the table. -/
def Contributes (document : SchemaDocument) (environment : Environment)
    (before : List SchemaDocument) (table column : String) : Prop :=
  ∃ pass ∈ document.passesAfter environment before, pass.context.table = table ∧
    column ∈ Entries.keys pass.table.fields

/-- A field of the document on the table is set apart by a prefix that makes up
the column. -/
def SpellsOut (document : SchemaDocument) (environment : Environment)
    (before : List SchemaDocument) (table column : String) : Prop :=
  ∃ pass ∈ document.passesAfter environment before, pass.context.table = table ∧
    ∃ node ∈ pass.site.fields, pass.context.FieldApart node ∧
      pass.context.beginning ++ node.identifierText = column

/-- What the document contributes to the column of the table has no default. -/
def LeavesDefault (document : SchemaDocument) (environment : Environment)
    (before : List SchemaDocument) (table column : String) : Prop :=
  ∀ pass ∈ document.passesAfter environment before, pass.context.table = table →
    ∀ field, pass.table.fields.lookup column = some field →
      field.config.lookup "default" = none

/-- The declaration of such a document counts after those before it. -/
theorem DeclaresOnly.firstTypeField?_append {document : SchemaDocument} {table column : String}
    (hDeclares : document.DeclaresOnly table column) (before between : List SchemaDocument) :
    firstTypeField? (before ++ document :: between) table =
      (firstTypeField? before table).or (some column) := by
  have hOn : typeFieldOn table document = some column := by
    rw [typeFieldOn, if_pos hDeclares.table, hDeclares.field]
  unfold firstTypeField?
  rw [List.findSome?_append, List.findSome?_cons, hOn]

/-- A document all of whose passes leave the column alone leaves its default. -/
theorem leavesDefault_of_not_contributes {document : SchemaDocument} {environment : Environment}
    {before : List SchemaDocument} {table column : String}
    (hNone : ¬document.Contributes environment before table column) :
    document.LeavesDefault environment before table column := by
  intro pass hPass hTable field hField
  exact absurd ⟨pass, hPass, hTable, Entries.mem_keys_iff.mpr ⟨field, hField⟩⟩ hNone

end SchemaDocument

/-- Identifiers at the top and directly below it occur in the trees. -/
theorem PassContext.mem_allIdentifiers_of_shallow {nodes : List FieldNode} {identifier : String}
    (hMem : identifier ∈ shallowIdentifiers nodes) :
    identifier ∈ FieldNode.allIdentifiers nodes := by
  obtain ⟨node, hNode, hFound⟩ := List.mem_flatMap.mp hMem
  obtain ⟨inner, hInner, hIdentifier⟩ := List.mem_filterMap.mp hFound
  have hIn := FieldNode.mem_identifiers_of_identifier hIdentifier
  refine FieldNode.mem_allIdentifiers_iff.mpr ⟨node, hNode, ?_⟩
  rcases List.mem_cons.mp hInner with rfl | hNested
  · exact hIn
  · exact FieldNode.mem_identifiers_of_fields
      (FieldNode.mem_allIdentifiers_iff.mpr ⟨inner, hNested, hIn⟩)

/-! ## Documents of a run -/

section Run

variable {environment : Environment} {documents before after : List SchemaDocument}
  {document : SchemaDocument} {table column : String}

/-- The passes of a document are those of the walk over its nodes, which
succeeds. -/
theorem exists_context_of_run (hRun : (runWalk environment documents).result = .ok ())
    (hSplit : documents = before ++ document :: after) :
    ∃ context, PassContext.ofDocument environment document = .ok context ∧
      ∀ nodes, document.rootNodes context (before.foldl SchemaDocument.declare []) = nodes →
        (Site.mk context document.rootPath nodes).Succeeds ∧
          document.passesAfter environment before =
            (Site.mk context document.rootPath nodes).walk.emission.passes := by
  rw [hSplit] at hRun
  obtain ⟨context, hDocument⟩ := SchemaDocument.exists_compile_of_compileAll hRun
  obtain ⟨hValid, hReads, hWalk⟩ := SchemaDocument.compile_result_eq_ok_iff.mp hDocument
  refine ⟨context, hReads, ?_⟩
  rintro _ rfl
  refine ⟨⟨PassContext.named_of_ofDocument hValid hReads, hWalk⟩, ?_⟩
  unfold SchemaDocument.passesAfter
  rw [SchemaDocument.compile_emission hDocument]

/-- The passes of a document stand among those of the run, before those of the
later documents. -/
theorem exists_passes_append (hRun : (runWalk environment documents).result = .ok ())
    (hSplit : documents = before ++ document :: after) :
    ∃ earlier later, (runWalk environment documents).emission.passes =
        earlier ++ (document.passesAfter environment before ++ later) ∧
      ∀ pass ∈ later, ∃ between other rest, after = between ++ other :: rest ∧
        pass ∈ other.passesAfter environment (before ++ document :: between) := by
  obtain ⟨context, hReads, hSite⟩ := exists_context_of_run hRun hSplit
  obtain ⟨_, hPasses⟩ := hSite _ rfl
  let known := before.foldl SchemaDocument.declare []
  have hOwn : document.rootSite? environment known = some _ :=
    SchemaDocument.rootSite?_eq_some_iff.mpr ⟨context, hReads, rfl⟩
  let passesOf (sites : List Site) : List Pass :=
    sites.flatMap fun site => site.walk.emission.passes
  refine ⟨passesOf (SchemaDocument.rootSites environment [] before),
    passesOf (SchemaDocument.rootSites environment (SchemaDocument.declare known document) after),
    ?_, ?_⟩
  · rw [(runWalk_sites hRun).passes, hSplit, SchemaDocument.rootSites_append,
      SchemaDocument.rootSites, hOwn, List.flatMap_append, List.flatMap_append, hPasses]
    rw [Option.toList_some, List.flatMap_singleton]
  · intro pass hPass
    obtain ⟨site, hLater, hIn⟩ := List.mem_flatMap.mp hPass
    obtain ⟨between, other, rest, hAfter, hMade⟩ := SchemaDocument.mem_rootSites_iff.mp hLater
    refine ⟨between, other, rest, hAfter, ?_⟩
    have hSplit' : documents = (before ++ document :: between) ++ other :: rest := by
      rw [hSplit, hAfter, List.append_assoc, List.cons_append]
    obtain ⟨context', hReads', hSite'⟩ := exists_context_of_run hRun hSplit'
    obtain ⟨found, hFound, rfl⟩ := SchemaDocument.rootSite?_eq_some_iff.mp hMade
    obtain rfl : found = context' := Except.ok.inj (hFound.symm.trans hReads')
    rw [(hSite' _ rfl).2, List.foldl_append, List.foldl_cons]
    exact hIn

/-! ## Who adds the column -/

/-- The nodes of such a document are its own, behind an added one unless the
column is known. -/
theorem rootNodes_eq_of_declaresOnly (hRun : (runWalk environment documents).result = .ok ())
    (hSplit : documents = before ++ document :: after)
    (hDeclares : document.DeclaresOnly table column)
    (hBase : environment.baseSchema.has table column = false) {context : PassContext}
    (hReads : PassContext.ofDocument environment document = .ok context) :
    ∃ typeName, document.resolvedTypeName = .ok typeName ∧
      document.rootNodes context (before.foldl SchemaDocument.declare []) =
        if SchemaDocument.firstTypeField? before table = some column then document.fields
        else context.discriminatorField column typeName :: document.fields := by
  have hOn := (PassContext.tableName_of_ofDocument hReads).1
  obtain rfl : context.table = table := Option.some.inj (hOn.symm.trans hDeclares.table)
  have hKnown : context.knowsTypeField (before.foldl SchemaDocument.declare []) column = false ↔
      environment.baseSchema.has context.table column = false ∧
        SchemaDocument.firstTypeField? before context.table ≠ some column :=
    knowsTypeField_eq_false_iff hRun hSplit hReads
  have hOf := PassContext.ofDocument_of_eq_ok hReads
  obtain ⟨typeName, hTypeName, hName⟩ := hOf.typeName
  have hKind : context.kind = .recordType := hOf.kind.trans hDeclares.kind
  have hField : context.typeField = some column := hOf.typeField.trans hDeclares.field
  have hFree :
      (PassContext.shallowIdentifiers context.document.fields).contains column = false := by
    have hAbsent : column ∉ PassContext.shallowIdentifiers document.fields := fun hMem =>
      hDeclares.absent (PassContext.mem_allIdentifiers_of_shallow hMem)
    rw [PassContext.document_of_ofDocument hReads]
    simpa using hAbsent
  refine ⟨typeName, hTypeName, ?_⟩
  unfold SchemaDocument.rootNodes PassContext.addedNodes
  simp only [hKind, hField, hName, hFree, Bool.false_or]
  by_cases hFirst : SchemaDocument.firstTypeField? before context.table = some column
  · have hKnows :
        context.knowsTypeField (before.foldl SchemaDocument.declare []) column = true := by
      rw [← Bool.not_eq_false, hKnown]
      exact fun hNew => hNew.2 hFirst
    rw [if_pos hKnows, if_pos hFirst, List.nil_append]
  · rw [if_neg (by rw [hKnown.mpr ⟨hBase, hFirst⟩]; exact Bool.false_ne_true), if_neg hFirst]
    rfl

/-- Such a document adds the column unless the first discriminator declared for
the table is this one. -/
theorem synthesizes_iff (hRun : (runWalk environment documents).result = .ok ())
    (hSplit : documents = before ++ document :: after)
    (hDeclares : document.DeclaresOnly table column)
    (hBase : environment.baseSchema.has table column = false) :
    document.Synthesizes environment before column ↔
      SchemaDocument.firstTypeField? before table ≠ some column := by
  obtain ⟨context, hReads, _⟩ := exists_context_of_run hRun hSplit
  obtain ⟨typeName, hTypeName, hNodes⟩ :=
    rootNodes_eq_of_declaresOnly hRun hSplit hDeclares hBase hReads
  constructor
  · rintro ⟨other, _, hOther, _, hAdded⟩ hFirst
    obtain rfl : other = context := Except.ok.inj (hOther.symm.trans hReads)
    rw [if_pos hFirst] at hNodes
    exact List.cons_ne_self _ _ (hAdded.symm.trans hNodes)
  · intro hFirst
    rw [if_neg hFirst] at hNodes
    exact ⟨context, typeName, hReads, hTypeName, hNodes⟩

/-- Of two such documents the first adds the column and the later does not,
exactly if nothing is declared for the table before them. -/
theorem synthesizes_once_iff {first later : SchemaDocument} {between : List SchemaDocument}
    (hRun : (runWalk environment documents).result = .ok ())
    (hSplit : documents = before ++ first :: (between ++ later :: after))
    (hFirst : first.DeclaresOnly table column) (hLater : later.DeclaresOnly table column)
    (hBase : environment.baseSchema.has table column = false) :
    first.Synthesizes environment before column ∧
        ¬later.Synthesizes environment (before ++ first :: between) column ↔
      SchemaDocument.firstTypeField? before table = none := by
  have hSplit' : documents = (before ++ first :: between) ++ later :: after := by
    rw [hSplit, List.append_assoc, List.cons_append]
  rw [synthesizes_iff hRun hSplit hFirst hBase, synthesizes_iff hRun hSplit' hLater hBase,
    hFirst.firstTypeField?_append]
  -- An earlier declaration keeps both from adding the column, or none of them.
  cases SchemaDocument.firstTypeField? before table <;> simp

/-- In the passes of such a document the only field authored with the name of the
column is the added one. -/
theorem eq_discriminatorField_of_identifierText
    (hRun : (runWalk environment documents).result = .ok ())
    (hSplit : documents = before ++ document :: after)
    (hDeclares : document.DeclaresOnly table column)
    (hBase : environment.baseSchema.has table column = false) {pass : Pass}
    (hPass : pass ∈ document.passesAfter environment before) {node : FieldNode}
    (hNode : node ∈ pass.site.fields) (hText : node.identifierText = column) :
    document.Synthesizes environment before column ∧
      ∃ context typeName, PassContext.ofDocument environment document = .ok context ∧
        document.resolvedTypeName = .ok typeName ∧
        node = context.discriminatorField column typeName := by
  obtain ⟨context, hReads, hSite⟩ := exists_context_of_run hRun hSplit
  obtain ⟨typeName, hTypeName, hNodes⟩ :=
    rootNodes_eq_of_declaresOnly hRun hSplit hDeclares hBase hReads
  obtain ⟨hSucceeds, hPasses⟩ := hSite _ hNodes
  rw [hPasses] at hPass
  by_cases hFirst : SchemaDocument.firstTypeField? before table = some column
  · rw [if_pos hFirst] at hSucceeds hPass
    have hMem := hSucceeds.mem_allIdentifiers hPass hNode
    rw [hText] at hMem
    exact absurd hMem hDeclares.absent
  · rw [if_neg hFirst] at hNodes hSucceeds hPass
    refine ⟨⟨context, typeName, hReads, hTypeName, hNodes⟩, context, typeName, hReads, hTypeName,
      ?_⟩
    let discriminator := context.discriminatorField column typeName
    let site : Site := ⟨context, document.rootPath, discriminator :: document.fields⟩
    let authored : Site := ⟨context, document.rootPath, document.fields⟩
    -- A field at the root is the added one or an authored one.
    have hCases (field : FieldNode) (hField : field ∈ site.fields) :
        field = discriminator ∨ field ∈ authored.fields := by
      rcases List.mem_append.mp hField with hOwn | hRest
      · exact .inl (PassContext.mem_ownFields_discriminatorField_iff.mp hOwn).1
      · exact .inr hRest
    have hAbsent (field : FieldNode) (hField : field ∈ authored.fields) :
        column ∉ field.identifiers := fun hMem =>
      hDeclares.absent (Site.mem_allIdentifiers_of_field hField hMem)
    rcases hSucceeds.own_or_nested hPass with hOwn | ⟨field, hField, child, hChild, hBelow, hIn⟩
    · rw [hOwn] at hNode
      rcases hCases node hNode with hAdded | hAuthored
      · exact hAdded
      · have hMem := (hSucceeds.hasIdentifier hNode).mem_identifiers
        rw [hText] at hMem
        exact absurd hMem (hAbsent node hAuthored)
    · have hMem := hBelow.mem_allIdentifiers hIn hNode
      rw [hText, Site.nodes_of_child? hChild] at hMem
      rcases hCases field hField with rfl | hAuthored
      · contradiction
      · exact absurd (FieldNode.mem_identifiers_of_fields hMem) (hAbsent field hAuthored)

/-- Where such a document adds the column, its last pass writes the table and has
the added field, which keeps the name of the column. -/
theorem exists_own_pass_of_synthesizes (hRun : (runWalk environment documents).result = .ok ())
    (hSplit : documents = before ++ document :: after)
    (hDeclares : document.DeclaresOnly table column)
    (hAdds : document.Synthesizes environment before column)
    (hSelect : ∀ type, environment.catalog.find? "Select" = some type →
      type.kind ≠ .palette ∧ type.kind ≠ .tab) :
    ∃ nested own typeName, document.passesAfter environment before = nested ++ [own] ∧
      PassContext.ofDocument environment document = .ok own.context ∧
      own.context.table = table ∧ document.resolvedTypeName = .ok typeName ∧
      own.context.discriminatorField column typeName ∈ own.site.fields ∧
      own.context.fieldName (own.context.discriminatorField column typeName) = column := by
  obtain ⟨context, typeName, hReads, hTypeName, hNodes⟩ := hAdds
  obtain ⟨other, hOther, hSite⟩ := exists_context_of_run hRun hSplit
  obtain rfl : other = context := Except.ok.inj (hOther.symm.trans hReads)
  obtain ⟨hSucceeds, hPasses⟩ := hSite _ hNodes
  obtain ⟨own, hOwn, hWalk⟩ := hSucceeds.passes_walk
  obtain rfl : own.context = other := congrArg Site.context hOwn
  have hOn := (PassContext.tableName_of_ofDocument hReads).1
  have hOf := PassContext.ofDocument_of_eq_ok hReads
  refine ⟨_, own, typeName, hPasses.trans hWalk, hReads,
    Option.some.inj (hOn.symm.trans hDeclares.table), hTypeName, ?_, ?_⟩
  · rw [hOwn]
    refine List.mem_flatMap.mpr ⟨_, List.mem_cons_self, ?_⟩
    refine PassContext.mem_ownFields_discriminatorField_iff.mpr ⟨rfl, ?_⟩
    rw [hOf.environment]
    exact hSelect
  · exact PassContext.fieldName_discriminatorField _ (hOf.typeField.trans hDeclares.field)

/-- The passes of a document are passes of the run. -/
theorem mem_passes_of_passesAfter (hRun : (runWalk environment documents).result = .ok ())
    (hSplit : documents = before ++ document :: after) {pass : Pass}
    (hPass : pass ∈ document.passesAfter environment before) :
    pass ∈ (runWalk environment documents).emission.passes := by
  obtain ⟨earlier, later, hPasses, _⟩ := exists_passes_append hRun hSplit
  rw [hPasses]
  exact List.mem_append_right _ (List.mem_append_left _ hPass)

/-- Such a document contributes the column if it adds it, and otherwise only where
a prefix makes up its name. -/
theorem contributes_iff (hRun : (runWalk environment documents).result = .ok ())
    (hSplit : documents = before ++ document :: after)
    (hDeclares : document.DeclaresOnly table column)
    (hBase : environment.baseSchema.has table column = false)
    (hSelect : ∀ type, environment.catalog.find? "Select" = some type →
      type.kind ≠ .palette ∧ type.kind ≠ .tab) :
    document.Contributes environment before table column ↔
      document.Synthesizes environment before column ∨
        document.SpellsOut environment before table column := by
  have hCompiled (pass : Pass) (hPass : pass ∈ document.passesAfter environment before) :
      pass.Compiled := compiled_of_mem_passes (mem_passes_of_passesAfter hRun hSplit hPass)
  constructor
  · rintro ⟨pass, hPass, hTable, hColumn⟩
    obtain ⟨node, hNode, hName⟩ := (hCompiled pass hPass).mem_keys_fields_iff.mp hColumn
    rcases PassContext.fieldName_eq_iff.mp hName with ⟨hApart, hText⟩ | ⟨_, hText⟩
    · exact .inr ⟨pass, hPass, hTable, node, hNode, hApart, hText.symm⟩
    · exact .inl (eq_discriminatorField_of_identifierText hRun hSplit hDeclares hBase hPass hNode
        hText.symm).1
  · rintro (hAdds | ⟨pass, hPass, hTable, node, hNode, hApart, hText⟩)
    · obtain ⟨nested, own, typeName, hPasses, _, hTable, _, hAdded, hName⟩ :=
        exists_own_pass_of_synthesizes hRun hSplit hDeclares hAdds hSelect
      have hOwn : own ∈ document.passesAfter environment before := by
        rw [hPasses]
        simp
      exact ⟨own, hOwn, hTable,
        (hCompiled own hOwn).mem_keys_fields_iff.mpr ⟨_, hAdded, hName⟩⟩
    · exact ⟨pass, hPass, hTable, (hCompiled pass hPass).mem_keys_fields_iff.mpr
        ⟨node, hNode, PassContext.fieldName_eq_iff.mpr (.inl ⟨hApart, hText.symm⟩)⟩⟩

end Run

/-! ## Its default -/

/-- The default of an added discriminator is kept when it is compiled: neither a
data structure, nor items, nor the link of a collection replaces it. -/
theorem PassContext.config_compiledField_discriminatorField (context : PassContext)
    (path : LanguagePath) (type : TypeDescriptor) (typeField typeName unique : String) :
    Entries.Distinct (context.compiledField path type
        (context.discriminatorField typeField typeName) unique).config ∧
      (context.compiledField path type
        (context.discriminatorField typeField typeName) unique).config.lookup "default" =
          some (.string typeName) := by
  let node := context.discriminatorField typeField typeName
  have hCarried : carriedConfig node type = [("default", .string typeName)] := by
    have hForeign : "default" ∉ TableSettings.names := by decide
    show List.filter _ [("default", Value.string typeName)] = _
    simp [hForeign]
  have hNode : Entries.Distinct node.config := List.nodup_singleton _
  refine ⟨distinct_config_compiledField hNode type unique, ?_⟩
  rw [lookup_config_compiledField (by decide)]
  unfold unlinkedField
  rw [hCarried, Entries.lookup_insertAll_of_not_mem]
  · rfl
  · cases context.structure? (path.push node.identifierText) type node <;>
      cases registeredItems (path.push node.identifierText) node type <;>
        simp [Value.entry?, Entries.keys]

/-- Where such a document adds the column, its own pass stores the added field. -/
theorem exists_stored_of_synthesizes {environment : Environment}
    {documents before after : List SchemaDocument} {document : SchemaDocument}
    {table column : String} (hRun : (runWalk environment documents).result = .ok ())
    (hSplit : documents = before ++ document :: after)
    (hDeclares : document.DeclaresOnly table column)
    (hBase : environment.baseSchema.has table column = false)
    (hSelect : ∀ type, environment.catalog.find? "Select" = some type →
      type.kind ≠ .palette ∧ type.kind ≠ .tab)
    (hAdds : document.Synthesizes environment before column)
    (hPlain : ¬document.SpellsOut environment before table column) :
    ∃ nested own stored typeName, document.passesAfter environment before = nested ++ [own] ∧
      own.context.table = table ∧ own.table.fields.lookup column = some stored ∧
      document.resolvedTypeName = .ok typeName ∧ Entries.Distinct stored.config ∧
      stored.config.lookup "default" = some (.string typeName) := by
  obtain ⟨nested, own, typeName, hPasses, hReads, hTable, hTypeName, hAdded, hKept⟩ :=
    exists_own_pass_of_synthesizes hRun hSplit hDeclares hAdds hSelect
  have hOwn : own ∈ document.passesAfter environment before := by
    rw [hPasses]
    simp
  have hCompiled := compiled_of_mem_passes (mem_passes_of_passesAfter hRun hSplit hOwn)
  have hListed : column ∈ Entries.keys own.table.fields :=
    hCompiled.mem_keys_fields_iff.mpr ⟨_, hAdded, hKept⟩
  obtain ⟨stored, hStored⟩ := Entries.mem_keys_iff.mp hListed
  -- No prefix makes up the column, so what is stored under its name is the added field.
  obtain ⟨node, hNode, hName, type, _, hMade⟩ := hCompiled.exists_node_of_lookup hStored
  have hText : node.identifierText = column := by
    rcases PassContext.fieldName_eq_iff.mp hName with ⟨hApart, hText⟩ | ⟨_, hText⟩
    · exact absurd ⟨own, hOwn, hTable, node, hNode, hApart, hText.symm⟩ hPlain
    · exact hText.symm
  obtain ⟨_, context, typeName', hReads', hTypeName', rfl⟩ :=
    eq_discriminatorField_of_identifierText hRun hSplit hDeclares hBase hOwn hNode hText
  obtain rfl : context = own.context := Except.ok.inj (hReads'.symm.trans hReads)
  obtain rfl : typeName = typeName' := Except.ok.inj (hTypeName.symm.trans hTypeName')
  have hConfig := own.context.config_compiledField_discriminatorField own.path type column
    typeName column
  refine ⟨nested, own, stored, typeName, hPasses, hTable, hStored, hTypeName, ?_, ?_⟩
  · rw [hMade]
    exact hConfig.1
  · rw [hMade]
    exact hConfig.2

/-- The merged field has the default of a document that adds it, unless a prefix
makes up its name there or a later document sets another default. -/
theorem lookup_default_of_synthesizes {environment : Environment}
    {documents before after : List SchemaDocument} {document : SchemaDocument}
    {result : CompiledResult} {table column : String}
    (hResult : compile environment documents = .ok result)
    (hSplit : documents = before ++ document :: after)
    (hDeclares : document.DeclaresOnly table column)
    (hBase : environment.baseSchema.has table column = false)
    (hSelect : ∀ type, environment.catalog.find? "Select" = some type →
      type.kind ≠ .palette ∧ type.kind ≠ .tab)
    (hAdds : document.Synthesizes environment before column)
    (hPlain : ¬document.SpellsOut environment before table column)
    (hLater : ∀ between other rest, after = between ++ other :: rest →
      other.LeavesDefault environment (before ++ document :: between) table column) :
    ∃ merged field typeName, result.tables.lookup table = some merged ∧
      merged.fields.lookup column = some field ∧ document.resolvedTypeName = .ok typeName ∧
      field.config.lookup "default" = some (.string typeName) := by
  obtain ⟨hRun, _⟩ := compile_eq_ok_iff.mp hResult
  obtain ⟨nested, own, stored, typeName, hPasses, rfl, hStored, hTypeName, hDistinct, hDefault⟩ :=
    exists_stored_of_synthesizes hRun hSplit hDeclares hBase hSelect hAdds hPlain
  have hOwn : own ∈ document.passesAfter environment before := by
    rw [hPasses]
    simp
  obtain ⟨merged, field, hMerged, hField, hFieldLaid⟩ :=
    exists_field_of_mem_passes hResult (mem_passes_of_passesAfter hRun hSplit hOwn) hStored
  -- On the table come the passes before, that of the document, and those after it.
  obtain ⟨earlier, later, hAll, hAfter⟩ := exists_passes_append hRun hSplit
  let on (passes : List Pass) : List Pass :=
    passes.filter fun pass => pass.context.table = own.context.table
  have hOn : (runWalk environment documents).emission.passesOn own.context.table =
      on (earlier ++ nested) ++ own :: on later := by
    unfold Emission.passesOn
    rw [hAll, hPasses]
    simp [on]
  have hUnder : TableDefinition.fieldsUnder
      (((runWalk environment documents).emission.passesOn own.context.table).map Pass.table)
        column =
      TableDefinition.fieldsUnder ((on (earlier ++ nested)).map Pass.table) column ++
        stored :: TableDefinition.fieldsUnder ((on later).map Pass.table) column := by
    unfold TableDefinition.fieldsUnder
    rw [hOn, List.map_append, List.map_cons, List.filterMap_append]
    simp only [List.filterMap_cons, hStored]
  rw [hUnder] at hFieldLaid
  refine ⟨merged, field, typeName, hMerged, hField, hTypeName, ?_⟩
  refine hFieldLaid.lookup_config hDistinct hDefault ?_
  intro other hOther
  obtain ⟨_, hPart, hFound⟩ := List.mem_filterMap.mp hOther
  obtain ⟨pass, hPass, rfl⟩ := List.mem_map.mp hPart
  obtain ⟨hMem, hTable⟩ := List.mem_filter.mp hPass
  obtain ⟨between, next, rest, hRest, hIn⟩ := hAfter pass hMem
  exact hLater between next rest hRest pass hIn (of_decide_eq_true hTable) other hFound

/-! ## The rules -/

/-- What becomes of the discriminator of such a document, which is compiled after
the documents `before` and before the documents `after`. -/
structure SchemaDocument.DiscriminatorRules (document : SchemaDocument)
    (environment : Environment) (before after : List SchemaDocument) (result : CompiledResult)
    (table column : String) : Prop where
  /-- It is added unless it is the first one declared for the table. -/
  synthesizes : document.Synthesizes environment before column ↔
    firstTypeField? before table ≠ some column
  /-- If it is not added, the walk visits the nodes of the document only. -/
  authored : ¬document.Synthesizes environment before column → ∀ context,
    PassContext.ofDocument environment document = .ok context →
      document.rootNodes context (before.foldl declare []) = document.fields
  contributes : document.Contributes environment before table column ↔
    document.Synthesizes environment before column ∨
      document.SpellsOut environment before table column
  /-- If it is added, its label is registered for the document. -/
  label : document.Synthesizes environment before column →
    (∀ type, environment.catalog.find? "Select" = some type → type.storage ≠ .passthrough) →
    ∃ key ∈ result.languageKeys.get document.name,
      key.key = column ++ ".label" ∧ key.default = column
  /-- If it is added, the merged field has the discriminator value of the document
  as default, unless later documents configure another one. -/
  default : document.Synthesizes environment before column →
    ¬document.SpellsOut environment before table column →
    (∀ between other rest, after = between ++ other :: rest →
      other.LeavesDefault environment (before ++ document :: between) table column) →
    ∃ merged field typeName, result.tables.lookup table = some merged ∧
      merged.fields.lookup column = some field ∧ document.resolvedTypeName = .ok typeName ∧
      field.config.lookup "default" = some (.string typeName)

section Rules

variable {environment : Environment} {documents before after : List SchemaDocument}
  {document : SchemaDocument} {result : CompiledResult} {table column : String}

/-- The label of an added discriminator is registered for its document. -/
theorem exists_label_of_synthesizes (hResult : compile environment documents = .ok result)
    (hSplit : documents = before ++ document :: after)
    (hAdds : document.Synthesizes environment before column)
    (hSelect : ∀ type, environment.catalog.find? "Select" = some type →
      type.kind ≠ .palette ∧ type.kind ≠ .tab)
    (hShown : ∀ type, environment.catalog.find? "Select" = some type →
      type.storage ≠ .passthrough) :
    ∃ key ∈ result.languageKeys.get document.name,
      key.key = column ++ ".label" ∧ key.default = column := by
  obtain ⟨context, typeName, hReads, _, hNodes⟩ := hAdds
  let discriminator := context.discriminatorField column typeName
  have hCatalog := (PassContext.ofDocument_of_eq_ok hReads).environment
  have hNode : discriminator ∈ context.fieldNodes
      (document.rootNodes context (before.foldl SchemaDocument.declare [])) := by
    rw [hNodes]
    refine List.mem_flatMap.mpr ⟨_, List.mem_cons_self, ?_⟩
    refine PassContext.mem_ownFields_discriminatorField_iff.mpr ⟨rfl, ?_⟩
    rw [hCatalog]
    exact hSelect
  have hStorage : context.storageOf? discriminator ≠ some .passthrough := by
    have hType : context.storageOf? discriminator =
        (context.environment.catalog.find? "Select").map TypeDescriptor.storage := rfl
    rw [hType, hCatalog]
    intro hSame
    obtain ⟨type, hFound, hPassthrough⟩ := Option.map_eq_some_iff.mp hSame
    exact hShown type hFound hPassthrough
  exact ⟨_, labelKey_mem_languageKeys hResult hSplit hReads hNode hStorage,
    PassContext.labelKey_key_of_root _ _, rfl⟩

/-- For every document of a run that declares the column as discriminator of the
table and has no node of that name, the rules hold, provided that the base schema
lacks the column and select fields are fields.  Of two such documents the first
adds the column and the later does not, exactly if no discriminator is declared
for the table before them. -/
theorem discriminatorRules_of_compile (hResult : compile environment documents = .ok result)
    (hBase : environment.baseSchema.has table column = false)
    (hSelect : ∀ type, environment.catalog.find? "Select" = some type →
      type.kind ≠ .palette ∧ type.kind ≠ .tab) :
    (∀ before document after, documents = before ++ document :: after →
      document.DeclaresOnly table column →
        document.DiscriminatorRules environment before after result table column) ∧
      ∀ before first between later after,
        documents = before ++ first :: (between ++ later :: after) →
        first.DeclaresOnly table column → later.DeclaresOnly table column →
          (first.Synthesizes environment before column ∧
              ¬later.Synthesizes environment (before ++ first :: between) column ↔
            SchemaDocument.firstTypeField? before table = none) := by
  obtain ⟨hRun, _⟩ := compile_eq_ok_iff.mp hResult
  constructor
  · intro before document after hSplit hDeclares
    exact {
      synthesizes := synthesizes_iff hRun hSplit hDeclares hBase
      authored := by
        intro hNot context hReads
        rw [synthesizes_iff hRun hSplit hDeclares hBase, not_not] at hNot
        obtain ⟨_, _, hNodes⟩ := rootNodes_eq_of_declaresOnly hRun hSplit hDeclares hBase hReads
        rw [hNodes, if_pos hNot]
      contributes := contributes_iff hRun hSplit hDeclares hBase hSelect
      label := fun hAdds hShown =>
        exists_label_of_synthesizes hResult hSplit hAdds hSelect hShown
      default := fun hAdds hPlain hLater =>
        lookup_default_of_synthesizes hResult hSplit hDeclares hBase hSelect hAdds hPlain hLater }
  · intro before first between later after hSplit hFirst hLater
    exact synthesizes_once_iff hRun hSplit hFirst hLater hBase

end Rules

/-- A record type on the table of vehicles, without nodes. -/
def vehicle (name typeField typeName : String) : SchemaDocument where
  name := name
  kind := .recordType
  table := some "tx_vehicle"
  typeField := some typeField
  typeName := some typeName

/-- The default of a field, if it is a text. -/
def CompiledField.defaultText? (field : CompiledField) : Option String :=
  match field.config.lookup "default" with
  | some (.string text) => some text
  | _ => none

/-- Behind a document with another discriminator each of two documents adds the
column, and the later one sets the default and registers the label once more. -/
theorem synthesized_again_vehicles :
    vehicleEnvironment.baseSchema.has "tx_vehicle" "type" = false ∧
      (vehicle "acme/car" "type" "car").DeclaresOnly "tx_vehicle" "type" ∧
      (vehicle "acme/bike" "type" "bike").DeclaresOnly "tx_vehicle" "type" ∧
      ((compile vehicleEnvironment
          [vehicle "acme/boat" "kind" "boat", vehicle "acme/car" "type" "car",
            vehicle "acme/bike" "type" "bike"]).toOption.bind fun result =>
        (result.tables.lookup "tx_vehicle").map fun table =>
          (table.contentTypes.map (fun contentType =>
              (contentType.identifier, contentType.showItems)),
            (table.fields.lookup "type").bind CompiledField.defaultText?,
            (result.languageKeys.get "acme/bike").map LanguageKey.key)) =
        some
          ([("acme/boat", [.field "kind"]), ("acme/car", [.field "type"]),
              ("acme/bike", [.field "type"])],
            some "bike", ["title", "description", "type.label", "type.items.bike.label"]) := by
  refine ⟨by decide, ⟨rfl, rfl, rfl, by decide⟩, ⟨rfl, rfl, rfl, by decide⟩, by decide +kernel⟩

/-- Without that document only the first one adds the column, and its default is
kept. -/
theorem discriminatorRules_of_compile_vehicles :
    ∃ result merged field,
      compile vehicleEnvironment
          [vehicle "acme/car" "type" "car", vehicle "acme/bike" "type" "bike"] = .ok result ∧
        (vehicle "acme/car" "type" "car").Synthesizes vehicleEnvironment [] "type" ∧
        ¬(vehicle "acme/bike" "type" "bike").Synthesizes vehicleEnvironment
          [vehicle "acme/car" "type" "car"] "type" ∧
        result.tables.lookup "tx_vehicle" = some merged ∧
        merged.fields.lookup "type" = some field ∧
        field.config.lookup "default" = some (.string "car") := by
  let car := vehicle "acme/car" "type" "car"
  let bike := vehicle "acme/bike" "type" "bike"
  obtain ⟨result, hResult⟩ := exists_eq_ok_of_isSome
    (by decide +kernel : (compile vehicleEnvironment [car, bike]).toOption.isSome = true)
  have hSelect : ∀ type, vehicleEnvironment.catalog.find? "Select" = some type →
      type.kind ≠ .palette ∧ type.kind ≠ .tab := by
    intro type hType
    have hFound : vehicleEnvironment.catalog.find? "Select" =
        some { name := "Select", storage := .select, items := .byValue } := by decide
    obtain rfl := Option.some.inj (hFound.symm.trans hType)
    decide
  have hCar : car.DeclaresOnly "tx_vehicle" "type" := ⟨rfl, rfl, rfl, by decide⟩
  have hBike : bike.DeclaresOnly "tx_vehicle" "type" := ⟨rfl, rfl, rfl, by decide⟩
  obtain ⟨hRules, hOnce⟩ := discriminatorRules_of_compile hResult
    (by decide : vehicleEnvironment.baseSchema.has "tx_vehicle" "type" = false) hSelect
  obtain ⟨hAdds, hNot⟩ := (hOnce [] car [] bike [] rfl hCar hBike).mpr rfl
  have hPlain : ¬car.SpellsOut vehicleEnvironment [] "tx_vehicle" "type" := by
    have hNone : (car.passesAfter vehicleEnvironment []).all (fun pass =>
        pass.site.fields.all fun node => !decide (pass.context.FieldApart node)) = true := by
      decide +kernel
    rintro ⟨pass, hPass, _, node, hNode, hApart, _⟩
    have hFree := List.all_eq_true.mp (List.all_eq_true.mp hNone pass hPass) node hNode
    rw [decide_eq_true hApart] at hFree
    exact Bool.false_ne_true hFree
  have hSilent : bike.LeavesDefault vehicleEnvironment [car] "tx_vehicle" "type" := by
    have hNone : (bike.passesAfter vehicleEnvironment [car]).all (fun pass =>
        decide ("type" ∉ Entries.keys pass.table.fields)) = true := by
      decide +kernel
    apply SchemaDocument.leavesDefault_of_not_contributes
    rintro ⟨pass, hPass, _, hListed⟩
    exact of_decide_eq_true (List.all_eq_true.mp hNone pass hPass) hListed
  obtain ⟨merged, field, typeName, hMerged, hField, hTypeName, hDefault⟩ :=
    (hRules [] car [bike] rfl hCar).default hAdds hPlain (by
      intro between other rest hAfter
      obtain ⟨rfl, hHere⟩ := List.append_eq_singleton_iff.mp hAfter.symm |>.resolve_right
        (fun hOther => List.cons_ne_nil _ _ hOther.2)
      obtain ⟨rfl, _⟩ := List.cons.inj hHere
      exact hSilent)
  have hCarName : car.resolvedTypeName = .ok "car" := by decide +kernel
  obtain rfl : "car" = typeName := Except.ok.inj (hCarName.symm.trans hTypeName)
  exact ⟨result, merged, field, hResult, hAdds, hNot, hMerged, hField, hDefault⟩

end ContentSchema
