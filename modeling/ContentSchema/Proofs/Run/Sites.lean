import ContentSchema.Proofs.Pass.Sites
import ContentSchema.Proofs.Run.References

/-!
# Sites of a run

Each document of a run has one site at the root, which depends on the documents
before it only through the discriminator columns that they declare.  The run
emits what the walks over these sites emit, one after another.

* `SchemaDocument.mem_rootSites_iff` tells the sites of a run by its documents.
* `runWalk_sites` says what a successful run emits.
* `own_or_embedded_of_mem_passes` and `exists_own_pass` say which passes that are.
* `exists_embeds_of_mem_passes` and `mem_references_iff` say what becomes of the
  collections among their fields.

The sites are listed for every list of documents; that their walks succeed does
NOT follow from that.
-/

namespace ContentSchema

/-! ## What passes read -/

namespace PassContext

/-- What the pass over a document reads, given its table and its discriminator
value. -/
def root (environment : Environment) (document : SchemaDocument) (table typeName : String) :
    PassContext where
  environment := environment
  document := document
  table := table
  rootTable := table
  kind := document.kind
  typeField := document.typeFieldName
  typeName := some typeName
  policy := .ofDocument document
  settings := document.settings
  title := document.title
  description := document.description

/-- What the pass over the nested nodes of a collection reads, given the
settings of its table. -/
def nested (context : PassContext) (node : FieldNode) (settings : TableSettings) :
    PassContext :=
  { context with
    table := context.childTable node
    kind := .recordType
    typeField := none
    typeName := none
    settings
    title := node.label <|> node.identifier
    description := node.description }

variable {environment : Environment} {document : SchemaDocument} {context child : PassContext}
  {node : FieldNode}

theorem ofDocument_eq_ok_iff :
    ofDocument environment document = .ok context ↔
      ∃ table typeName, document.tableName.filter (fun table => !table.isEmpty) = some table ∧
        document.resolvedTypeName = .ok typeName ∧
        context = root environment document table typeName := by
  unfold ofDocument
  cases hTable : document.tableName.filter fun table => !table.isEmpty with
  | none => simp [throw, throwThe, MonadExceptOf.throw]
  | some table =>
      simp only [bind_eq_ok_iff, Option.some.injEq]
      constructor
      · rintro ⟨typeName, hTypeName, hMade⟩
        cases hMade
        exact ⟨table, typeName, rfl, hTypeName, rfl⟩
      · rintro ⟨_, typeName, rfl, hTypeName, rfl⟩
        exact ⟨typeName, hTypeName, rfl⟩

/-- The pass over a document writes the table of the document. -/
theorem tableName_of_ofDocument (hContext : ofDocument environment document = .ok context) :
    document.tableName = some context.table ∧ context.table = context.rootTable := by
  obtain ⟨table, typeName, hTable, _, rfl⟩ := ofDocument_eq_ok_iff.mp hContext
  exact ⟨(Option.filter_eq_some_iff.mp hTable).1, rfl⟩

/-- What the pass over a document has from it besides its table. -/
structure OfDocument (context : PassContext) (environment : Environment)
    (document : SchemaDocument) : Prop where
  environment : context.environment = environment
  kind : context.kind = document.kind
  typeField : context.typeField = document.typeFieldName
  typeName : ∃ typeName, document.resolvedTypeName = .ok typeName ∧
    context.typeName = some typeName
  isRootTable : context.isRootTable = true

theorem ofDocument_of_eq_ok (hContext : ofDocument environment document = .ok context) :
    context.OfDocument environment document := by
  obtain ⟨table, typeName, _, hTypeName, rfl⟩ := ofDocument_eq_ok_iff.mp hContext
  exact ⟨rfl, rfl, rfl, ⟨typeName, hTypeName, rfl⟩, decide_eq_true rfl⟩

theorem nested_of_child? (hChild : context.child? node = some child) :
    ∃ settings, child = context.nested node settings := by
  obtain ⟨_, hMade⟩ := child?_eq_some_iff.mp hChild
  unfold ofCollection at hMade
  split at hMade
  · contradiction
  case h_2 settings _ =>
    cases hMade
    exact ⟨settings, rfl⟩

/-- What all passes over the nodes of one document have in common. -/
structure Within (root context : PassContext) : Prop where
  environment : context.environment = root.environment
  document : context.document = root.document
  rootTable : context.rootTable = root.rootTable
  policy : context.policy = root.policy

theorem within_self (context : PassContext) : context.Within context :=
  ⟨rfl, rfl, rfl, rfl⟩

theorem Within.nested {root : PassContext} (hContext : root.Within context) (node : FieldNode)
    (settings : TableSettings) : root.Within (context.nested node settings) :=
  ⟨hContext.environment, hContext.document, hContext.rootTable, hContext.policy⟩

end PassContext

theorem Site.context_of_child? {site child : Site} {node : FieldNode}
    (hChild : site.child? node = some child) :
    ∃ settings, child.context = site.context.nested node settings := by
  obtain ⟨context, hContext, rfl⟩ := Option.map_eq_some_iff.mp hChild
  exact PassContext.nested_of_child? hContext

namespace Pass

/-- The pass is embedded in one of the given passes. -/
def EmbeddedIn (inner : Pass) (passes : List Pass) : Prop :=
  ∃ outer ∈ passes, ∃ node, outer.Embeds node inner

/-- A nested pass has no discriminator value. -/
theorem EmbeddedIn.typeName_eq_none {inner : Pass} {passes : List Pass}
    (hInner : inner.EmbeddedIn passes) : inner.context.typeName = none := by
  obtain ⟨_, _, _, hEmbeds⟩ := hInner
  obtain ⟨_, hContext⟩ := Site.context_of_child? hEmbeds.child
  show inner.site.context.typeName = none
  rw [hContext]
  rfl

end Pass

/-! ## Roots -/

namespace SchemaDocument

/-- The discriminator columns declared once a document is compiled, told by the
document alone. -/
def declare (typeFields : Entries String) (document : SchemaDocument) : Entries String :=
  match document.tableName.filter fun table => !table.isEmpty, document.typeFieldName with
  | some table, some typeField => noteTypeField typeFields table typeField
  | _, _ => typeFields

/-- The site of the pass over a document, if there is such a pass. -/
def rootSite? (environment : Environment) (typeFields : Entries String)
    (document : SchemaDocument) : Option Site :=
  (PassContext.ofDocument environment document).toOption.map fun context =>
    ⟨context, document.rootPath, document.rootNodes context typeFields⟩

/-- The sites of the passes over documents, in order. -/
def rootSites (environment : Environment) (typeFields : Entries String) :
    List SchemaDocument → List Site
  | [] => []
  | document :: rest =>
      (document.rootSite? environment typeFields).toList ++
        rootSites environment (declare typeFields document) rest

variable {environment : Environment} {typeFields : Entries String} {document : SchemaDocument}
  {context : PassContext}

theorem declared_eq_declare (hContext : PassContext.ofDocument environment document = .ok context) :
    declared context typeFields = declare typeFields document := by
  obtain ⟨table, typeName, hTable, _, rfl⟩ := PassContext.ofDocument_eq_ok_iff.mp hContext
  unfold declared declare
  rw [hTable]
  cases hField : document.typeFieldName with
  | none => simp [PassContext.root, hField]
  | some typeField => simp [PassContext.root, hField]

/-- Of the discriminator columns of a table the one declared first is known, and
a document declares one for its own table only. -/
theorem lookup_declare_eq (document : SchemaDocument) (typeFields : Entries String)
    (table : String) :
    (declare typeFields document).lookup table =
      (typeFields.lookup table).or
        (if document.tableName.filter (fun table => !table.isEmpty) = some table then
          document.typeFieldName
        else none) := by
  unfold declare
  cases document.tableName.filter fun table => !table.isEmpty with
  | none => simp
  | some own =>
      cases document.typeFieldName with
      | none => simp
      | some typeField =>
          by_cases hSame : own = table
          · subst hSame
            rw [if_pos rfl]
            exact (Entries.lookup_update_self own _ typeFields).trans
              (by cases typeFields.lookup own <;> rfl)
          · have hOther : ¬some own = some table := fun hEq => hSame (Option.some.inj hEq)
            rw [if_neg hOther, Option.or_none]
            exact Entries.lookup_update_of_ne (Ne.symm hSame) _ typeFields

theorem rootSite?_eq_some_iff {site : Site} :
    document.rootSite? environment typeFields = some site ↔
      ∃ context, PassContext.ofDocument environment document = .ok context ∧
        site = ⟨context, document.rootPath, document.rootNodes context typeFields⟩ := by
  unfold rootSite?
  cases PassContext.ofDocument environment document with
  | error e => simp [Except.toOption]
  | ok context => simp [Except.toOption, eq_comm]

theorem rootSites_append (before after : List SchemaDocument) :
    rootSites environment typeFields (before ++ after) =
      rootSites environment typeFields before ++
        rootSites environment (before.foldl declare typeFields) after := by
  induction before generalizing typeFields with
  | nil => rfl
  | cons document rest ih =>
      rw [List.cons_append, rootSites, rootSites, ih, List.foldl_cons, List.append_assoc]

/-- A site belongs to one of the documents, after what those before it have
declared. -/
theorem mem_rootSites_iff {documents : List SchemaDocument} {site : Site} :
    site ∈ rootSites environment typeFields documents ↔
      ∃ before document after, documents = before ++ document :: after ∧
        document.rootSite? environment (before.foldl declare typeFields) = some site := by
  induction documents generalizing typeFields with
  | nil => simp [rootSites]
  | cons first rest ih =>
      rw [rootSites, List.mem_append, Option.mem_toList, ih]
      constructor
      · rintro (hFirst | ⟨before, document, after, rfl, hSite⟩)
        · exact ⟨[], first, rest, rfl, hFirst⟩
        · exact ⟨first :: before, document, after, rfl, hSite⟩
      · rintro ⟨before, document, after, hSplit, hSite⟩
        cases before with
        | nil =>
            obtain ⟨rfl, rfl⟩ := List.cons.inj hSplit
            exact .inl hSite
        | cons other before =>
            obtain ⟨rfl, hRest⟩ := List.cons.inj hSplit
            exact .inr ⟨before, document, after, hRest, hSite⟩

/-- A site at the root reads what its document says. -/
theorem exists_root_of_mem_rootSites {documents : List SchemaDocument} {site : Site}
    (hSite : site ∈ rootSites environment typeFields documents) :
    ∃ document ∈ documents, ∃ table typeName,
      document.tableName.filter (fun table => !table.isEmpty) = some table ∧
        document.resolvedTypeName = .ok typeName ∧
        site.context = .root environment document table typeName := by
  obtain ⟨before, document, after, rfl, hMade⟩ := mem_rootSites_iff.mp hSite
  obtain ⟨context, hContext, rfl⟩ := rootSite?_eq_some_iff.mp hMade
  obtain ⟨table, typeName, hTable, hTypeName, rfl⟩ := PassContext.ofDocument_eq_ok_iff.mp hContext
  exact ⟨document, by simp, table, typeName, hTable, hTypeName, rfl⟩

theorem document_of_mem_rootSites {documents : List SchemaDocument} {site : Site}
    (hSite : site ∈ rootSites environment typeFields documents) :
    site.context.document ∈ documents := by
  obtain ⟨document, hDocument, _, _, _, _, hContext⟩ := exists_root_of_mem_rootSites hSite
  rw [hContext]
  exact hDocument

end SchemaDocument

/-! ## Walks of a run -/

/-- The walks over the sites succeed, and all that is emitted for a result is
theirs. -/
structure EmitsSites (sites : List Site) (emission : Emission) : Prop where
  succeeds : ∀ site ∈ sites, site.Succeeds
  keys : emission.keys = sites.flatMap fun site => site.walk.emission.keys
  opened : emission.opened = sites.flatMap fun site => site.walk.emission.opened
  passes : emission.passes = sites.flatMap fun site => site.walk.emission.passes
  references : emission.references = sites.flatMap fun site => site.walk.emission.references

namespace SchemaDocument

variable {environment : Environment} {typeFields : Entries String}

/-- The walk over a document emits what the walk over its nodes emits. -/
theorem compile_emission {document : SchemaDocument} {context : PassContext}
    (hDocument : (document.compile environment typeFields).result = .ok context) :
    (document.compile environment typeFields).emission =
      (Site.mk context document.rootPath
        (document.rootNodes context typeFields)).walk.emission := by
  obtain ⟨hValid, hContext, hPass⟩ := compile_result_eq_ok_iff.mp hDocument
  let site : Site := ⟨context, document.rootPath, document.rootNodes context typeFields⟩
  have hWalk : site.walk.result = .ok () := hPass
  -- Checking and reading the document emits nothing.
  unfold compile
  rw [Walk.bind_of_ok ((Walk.liftM_result _).trans hValid),
    Walk.bind_of_ok ((Walk.liftM_result _).trans hContext)]
  show _ ++ (_ ++ (site.walk >>= fun _ => pure context).emission) = site.walk.emission
  rw [Walk.bind_of_ok hWalk]
  show ({} : Emission) ++ (({} : Emission) ++ (site.walk.emission ++ {})) = _
  rw [Emission.append_nil, Emission.nil_append, Emission.nil_append]

/-- The walk over a document emits what the walk over its site emits. -/
theorem emitsSites_compile {document : SchemaDocument} {context : PassContext}
    (hDocument : (document.compile environment typeFields).result = .ok context) :
    PassContext.ofDocument environment document = .ok context ∧
      EmitsSites (document.rootSite? environment typeFields).toList
        (document.compile environment typeFields).emission := by
  obtain ⟨hValid, hContext, hPass⟩ := compile_result_eq_ok_iff.mp hDocument
  have hSite := rootSite?_eq_some_iff.mpr
    ⟨context, hContext, (rfl : Site.mk context document.rootPath
      (document.rootNodes context typeFields) = _)⟩
  refine ⟨hContext, ?_⟩
  rw [hSite, compile_emission hDocument]
  constructor
  · intro other hOther
    obtain rfl := Option.some.inj (Option.mem_toList.mp hOther)
    exact ⟨PassContext.named_of_ofDocument hValid hContext, hPass⟩
  all_goals simp

theorem emitsSites_compileAll {documents : List SchemaDocument}
    (hDocuments : (compileAll environment typeFields documents).result = .ok ()) :
    EmitsSites (rootSites environment typeFields documents)
      (compileAll environment typeFields documents).emission := by
  induction documents generalizing typeFields with
  | nil => exact ⟨by simp [rootSites], rfl, rfl, rfl, rfl⟩
  | cons document rest ih =>
      obtain ⟨context, hDocument, hRest⟩ := compileAll_cons_result_eq_ok_iff.mp hDocuments
      obtain ⟨hContext, hHere⟩ := emitsSites_compile hDocument
      rw [declared_eq_declare hContext] at hRest
      have hLater := ih hRest
      -- Declaring a discriminator column emits nothing of what a result is made of.
      obtain ⟨columns, hEmission⟩ : ∃ columns,
          (compileAll environment typeFields (document :: rest)).emission =
            (document.compile environment typeFields).emission ++
              (({ typeFields := columns } : Emission) ++
                (compileAll environment (declare typeFields document) rest).emission) := by
        rw [← declared_eq_declare hContext, compileAll, Walk.bind_of_ok hDocument, declared]
        cases context.typeField with
        | none => exact ⟨[], by rw [Emission.nil_append]⟩
        | some typeField => exact ⟨[(context.table, typeField)], rfl⟩
      constructor
      · intro site hSite
        rcases List.mem_append.mp hSite with hSite | hSite
        · exact hHere.succeeds site hSite
        · exact hLater.succeeds site hSite
      · rw [rootSites, List.flatMap_append, ← hHere.keys, ← hLater.keys, hEmission]
        rfl
      · rw [rootSites, List.flatMap_append, ← hHere.opened, ← hLater.opened, hEmission]
        rfl
      · rw [rootSites, List.flatMap_append, ← hHere.passes, ← hLater.passes, hEmission]
        rfl
      · rw [rootSites, List.flatMap_append, ← hHere.references, ← hLater.references, hEmission]
        rfl

/-- Documents are compiled after those before them, of which only what they
declare is known. -/
theorem compileAll_append (before after : List SchemaDocument) :
    compileAll environment typeFields (before ++ after) =
      compileAll environment typeFields before >>= fun _ =>
        compileAll environment (before.foldl declare typeFields) after := by
  induction before generalizing typeFields with
  | nil => exact (pure_bind () fun _ => compileAll environment typeFields after).symm
  | cons document rest ih =>
      rw [List.cons_append, compileAll, compileAll, bind_assoc, List.foldl_cons]
      refine Walk.bind_congr_ok fun context hDocument => ?_
      obtain ⟨_, hContext, _⟩ := compile_result_eq_ok_iff.mp hDocument
      rw [← declared_eq_declare hContext, declared]
      cases context.typeField with
      | none => exact ih
      | some typeField =>
          show (Walk.emit _ >>= fun _ => compileAll environment _ (rest ++ after)) =
            (Walk.emit _ >>= fun _ => compileAll environment _ rest) >>= _
          rw [ih, bind_assoc]

/-- Each document of a run that succeeds is compiled after those before it. -/
theorem exists_compile_of_compileAll {before after : List SchemaDocument}
    {document : SchemaDocument}
    (hAll : (compileAll environment typeFields (before ++ document :: after)).result = .ok ()) :
    ∃ context,
      (document.compile environment (before.foldl declare typeFields)).result = .ok context := by
  rw [compileAll_append] at hAll
  obtain ⟨_, _, hRest⟩ := Walk.bind_result_eq_ok_iff.mp hAll
  obtain ⟨context, hDocument, _⟩ := compileAll_cons_result_eq_ok_iff.mp hRest
  exact ⟨context, hDocument⟩

/-- Every document of a run that succeeds is valid and has a pass of its own. -/
theorem valid_of_compileAll {documents : List SchemaDocument}
    (hDocuments : (compileAll environment typeFields documents).result = .ok ())
    {document : SchemaDocument} (hDocument : document ∈ documents) :
    document.validate = .ok () ∧
      ∃ context, PassContext.ofDocument environment document = .ok context := by
  obtain ⟨before, after, rfl⟩ := List.append_of_mem hDocument
  obtain ⟨context, hMade⟩ := exists_compile_of_compileAll hDocuments
  obtain ⟨hValid, hContext, _⟩ := compile_result_eq_ok_iff.mp hMade
  exact ⟨hValid, context, hContext⟩

end SchemaDocument

section Run

variable {environment : Environment} {documents : List SchemaDocument}

/-- A run that succeeds emits what its sites emit. -/
theorem runWalk_sites (hRun : (runWalk environment documents).result = .ok ()) :
    EmitsSites (SchemaDocument.rootSites environment [] documents)
      (runWalk environment documents).emission :=
  SchemaDocument.emitsSites_compileAll hRun

/-- Every pass of a run that succeeds stands at a site where the walk succeeds. -/
theorem succeeds_of_mem_passes (hRun : (runWalk environment documents).result = .ok ())
    {pass : Pass} (hPass : pass ∈ (runWalk environment documents).emission.passes) :
    pass.site.Succeeds := by
  have hSites := runWalk_sites hRun
  rw [hSites.passes] at hPass
  obtain ⟨site, hSite, hBelow⟩ := List.mem_flatMap.mp hPass
  exact (hSites.succeeds site hSite).of_mem_passes hBelow

/-- A run that succeeds opens the tables of its passes, in another order. -/
theorem perm_opened (hRun : (runWalk environment documents).result = .ok ()) :
    (runWalk environment documents).emission.opened.Perm
      ((runWalk environment documents).emission.passes.map fun pass => pass.context.table) := by
  have hSites := runWalk_sites hRun
  rw [hSites.opened, hSites.passes, List.map_flatMap]
  exact List.Perm.flatMap_left _ fun site hSite => (hSites.succeeds site hSite).perm_opened

/-- A pass of a run stands at the site of a document or is embedded in another
pass below that site. -/
theorem root_or_embedded_of_mem_passes (hRun : (runWalk environment documents).result = .ok ())
    {pass : Pass} (hPass : pass ∈ (runWalk environment documents).emission.passes) :
    ∃ site ∈ SchemaDocument.rootSites environment [] documents,
      pass ∈ site.walk.emission.passes ∧
        (pass.site = site ∨
          ∃ outer ∈ site.walk.emission.passes, ∃ node, outer.Embeds node pass) := by
  have hSites := runWalk_sites hRun
  rw [hSites.passes] at hPass
  obtain ⟨site, hSite, hBelow⟩ := List.mem_flatMap.mp hPass
  refine ⟨site, hSite, hBelow, ?_⟩
  -- The last pass below the site is the one at the site itself.
  obtain ⟨nested, own, hEq, hNests⟩ := (hSites.succeeds site hSite).exists_passes_eq
  rw [hEq] at hBelow ⊢
  rcases List.mem_append.mp hBelow with hNested | hOwn
  · exact .inr (hNests.embedded pass hNested)
  · rw [List.mem_singleton.mp hOwn]
    exact .inl hNests.last

/-- A pass of a run is that of a document, which knows what the documents before
it have declared, or it is embedded in another one. -/
theorem own_or_embedded_of_mem_passes (hRun : (runWalk environment documents).result = .ok ())
    {pass : Pass} (hPass : pass ∈ (runWalk environment documents).emission.passes) :
    (∃ before document after, documents = before ++ document :: after ∧
      PassContext.ofDocument environment document = .ok pass.context ∧
        pass.nodes = document.rootNodes pass.context (before.foldl SchemaDocument.declare [])) ∨
      pass.EmbeddedIn (runWalk environment documents).emission.passes := by
  obtain ⟨site, hSite, _, hRoot | ⟨outer, hOuter, hEmbeds⟩⟩ :=
    root_or_embedded_of_mem_passes hRun hPass
  · obtain ⟨before, document, after, hSplit, hMade⟩ := SchemaDocument.mem_rootSites_iff.mp hSite
    obtain ⟨context, hContext, rfl⟩ := SchemaDocument.rootSite?_eq_some_iff.mp hMade
    obtain rfl : pass.context = context := congrArg Site.context hRoot
    exact .inl ⟨before, document, after, hSplit, hContext, congrArg Site.nodes hRoot⟩
  · have hMem : outer ∈ (runWalk environment documents).emission.passes := by
      rw [(runWalk_sites hRun).passes]
      exact List.mem_flatMap.mpr ⟨site, hSite, hOuter⟩
    exact .inr ⟨outer, hMem, hEmbeds⟩

/-- There is a pass at the site of every document of a run. -/
theorem exists_pass_of_mem_rootSites (hRun : (runWalk environment documents).result = .ok ())
    {site : Site} (hSite : site ∈ SchemaDocument.rootSites environment [] documents) :
    ∃ own ∈ (runWalk environment documents).emission.passes, own.site = site := by
  have hSites := runWalk_sites hRun
  obtain ⟨nested, own, hEq, hNests⟩ := (hSites.succeeds site hSite).exists_passes_eq
  refine ⟨own, ?_, hNests.last⟩
  rw [hSites.passes]
  refine List.mem_flatMap.mpr ⟨site, hSite, ?_⟩
  rw [hEq]
  simp

/-- All that a document of a run emits comes from the walk over its site. -/
theorem exists_rootSite_of_run (hRun : (runWalk environment documents).result = .ok ())
    {before after : List SchemaDocument} {document : SchemaDocument}
    (hSplit : documents = before ++ document :: after) :
    ∃ site, document.rootSite? environment (before.foldl SchemaDocument.declare []) = some site ∧
      site.Succeeds ∧
      (document.compile environment (before.foldl SchemaDocument.declare [])).emission =
        site.walk.emission := by
  have hAll := hRun
  rw [runWalk, hSplit] at hAll
  obtain ⟨context, hDocument⟩ := SchemaDocument.exists_compile_of_compileAll hAll
  obtain ⟨_, hContext, _⟩ := SchemaDocument.compile_result_eq_ok_iff.mp hDocument
  have hRoot := SchemaDocument.rootSite?_eq_some_iff.mpr ⟨context, hContext,
    (rfl : Site.mk context document.rootPath
      (document.rootNodes context (before.foldl SchemaDocument.declare [])) = _)⟩
  refine ⟨_, hRoot, ?_, SchemaDocument.compile_emission hDocument⟩
  exact (runWalk_sites hRun).succeeds _
    (SchemaDocument.mem_rootSites_iff.mpr ⟨before, document, after, hSplit, hRoot⟩)

/-- Every document of a run has a pass of its own, which knows what the documents
before it have declared. -/
theorem exists_own_pass (hRun : (runWalk environment documents).result = .ok ())
    {before after : List SchemaDocument} {document : SchemaDocument}
    (hSplit : documents = before ++ document :: after) :
    ∃ own ∈ (runWalk environment documents).emission.passes,
      PassContext.ofDocument environment document = .ok own.context ∧
        own.nodes = document.rootNodes own.context (before.foldl SchemaDocument.declare []) := by
  obtain ⟨site, hRoot, _⟩ := exists_rootSite_of_run hRun hSplit
  obtain ⟨own, hOwn, rfl⟩ := exists_pass_of_mem_rootSites hRun
    (SchemaDocument.mem_rootSites_iff.mpr ⟨before, document, after, hSplit, hRoot⟩)
  obtain ⟨context, hContext, hSite⟩ := SchemaDocument.rootSite?_eq_some_iff.mp hRoot
  obtain rfl : own.context = context := congrArg Site.context hSite
  exact ⟨own, hOwn, hContext, congrArg Site.nodes hSite⟩

/-- All passes below the site of a document belong to that document. -/
theorem within_of_mem_passes {site : Site} (hSite : site.Succeeds) {pass : Pass}
    (hPass : pass ∈ site.walk.emission.passes) : site.context.Within pass.context := by
  refine hSite.forall_mem_passes (P := fun other => site.context.Within other.context) ?_
    (PassContext.within_self _) pass hPass
  -- A nested pass changes its table and what depends on it, and nothing else.
  intro outer node inner _ hChild hOuter
  obtain ⟨settings, hContext⟩ := Site.context_of_child? hChild
  rw [hContext]
  exact hOuter.nested node settings

/-- Every collection with nested nodes embeds a pass of the run. -/
theorem exists_embeds_of_mem_passes (hRun : (runWalk environment documents).result = .ok ())
    {pass : Pass} (hPass : pass ∈ (runWalk environment documents).emission.passes)
    {node : FieldNode} (hNode : node ∈ pass.site.fields) (hOpens : pass.context.HasPass node) :
    ∃ inner ∈ (runWalk environment documents).emission.passes, pass.Embeds node inner := by
  have hSites := runWalk_sites hRun
  rw [hSites.passes] at hPass ⊢
  obtain ⟨site, hSite, hBelow⟩ := List.mem_flatMap.mp hPass
  have hSucceeds := hSites.succeeds site hSite
  obtain ⟨child, hChild⟩ := (hSucceeds.of_mem_passes hBelow).exists_child? hNode hOpens
  obtain ⟨nested, own, hEq, hNests⟩ := hSucceeds.exists_passes_eq
  rw [hEq] at hBelow
  obtain ⟨inner, hInner, hMade⟩ := hNests.complete pass hBelow node hNode child hChild
  refine ⟨inner, List.mem_flatMap.mpr ⟨site, hSite, ?_⟩, hNode, hChild.trans (by rw [hMade])⟩
  rw [hEq]
  exact List.mem_append_left _ hInner

/-- The references of a run are those of the fields of its passes. -/
theorem mem_references_iff (hRun : (runWalk environment documents).result = .ok ())
    {reference : String × CompiledField} :
    reference ∈ (runWalk environment documents).emission.references ↔
      ∃ pass ∈ (runWalk environment documents).emission.passes, ∃ node ∈ pass.site.fields,
        pass.context.reference? pass.path node = some reference := by
  have hSites := runWalk_sites hRun
  rw [hSites.references, hSites.passes]
  constructor
  · intro hReference
    obtain ⟨site, hSite, hBelow⟩ := List.mem_flatMap.mp hReference
    obtain ⟨pass, hPass, hFrom⟩ := (hSites.succeeds site hSite).mem_references_iff.mp hBelow
    exact ⟨pass, List.mem_flatMap.mpr ⟨site, hSite, hPass⟩, hFrom⟩
  · rintro ⟨pass, hPass, hFrom⟩
    obtain ⟨site, hSite, hBelow⟩ := List.mem_flatMap.mp hPass
    exact List.mem_flatMap.mpr ⟨site, hSite,
      (hSites.succeeds site hSite).mem_references_iff.mpr ⟨pass, hBelow, hFrom⟩⟩

/-- A pass of a run targets the table of its document. -/
theorem tableName_of_mem_passes (hRun : (runWalk environment documents).result = .ok ())
    {pass : Pass} (hPass : pass ∈ (runWalk environment documents).emission.passes) :
    pass.context.document ∈ documents ∧
      pass.context.document.tableName = some pass.context.rootTable := by
  obtain ⟨site, hSite, hBelow, _⟩ := root_or_embedded_of_mem_passes hRun hPass
  have hWithin := within_of_mem_passes ((runWalk_sites hRun).succeeds site hSite) hBelow
  obtain ⟨document, hDocument, table, typeName, hTable, _, hRead⟩ :=
    SchemaDocument.exists_root_of_mem_rootSites hSite
  rw [hWithin.document, hWithin.rootTable, hRead]
  exact ⟨hDocument, (Option.filter_eq_some_iff.mp hTable).1⟩

end Run

end ContentSchema
