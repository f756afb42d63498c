import ContentSchema.Proofs.Pass.Keys
import ContentSchema.Proofs.Run.Listings

/-!
# Keys of a run

A result lists under the name of a document what its passes register for
themselves.  Every field of a pass registers a label at its position, whether it
stands at the top or in a palette; only fields without form presence register
nothing.

* `mem_languageKeys_iff` tells the keys of a result by its passes.
* `PassContext.labelKey` is the key of a label.
* `labelKey_mem_languageKeys` says that a result lists the labels of a document.

Keys are NOT unique: two documents of one name register into one list.
-/

namespace ContentSchema

/-! ## Keys of labels -/

namespace PassContext

/-- The key of the label of a field. -/
def labelKey (path : LanguagePath) (node : FieldNode) : LanguageKey :=
  let position := path.push node.identifierText
  ⟨position.keyFor "label", position.pathFor "label", node.label.getD node.identifierText⟩

/-- At the top of a document the key of a label starts with the identifier. -/
theorem labelKey_key_of_root (base : String) (node : FieldNode) :
    (labelKey ⟨base, []⟩ node).key = node.identifierText ++ ".label" := by
  show String.intercalate "." [node.identifierText] ++ "." ++ "label" = _
  rw [String.append_assoc]
  rfl

/-- A field with form presence registers its label. -/
theorem labelKey_mem_fieldKeys {context : PassContext} {path : LanguagePath} {node : FieldNode}
    {type : TypeDescriptor} (hType : context.typeOf? node = some type)
    (hStorage : type.storage ≠ .passthrough) :
    labelKey path node ∈ context.fieldKeys path node := by
  unfold fieldKeys labelKeys
  rw [hType]
  simp only [if_neg hStorage]
  exact List.mem_cons_self

end PassContext

/-- Every field of a site where the walk succeeds has a type. -/
theorem Site.Succeeds.exists_typeOf? {site : Site} (hSite : site.Succeeds) {node : FieldNode}
    (hNode : node ∈ site.fields) : ∃ type, site.context.typeOf? node = some type := by
  obtain ⟨_, items, _, _, hItems, _⟩ := PassContext.compilePass_result_eq_ok_iff.mp hSite.result
  obtain ⟨_, hNodes⟩ := PassContext.nodesWalk_result_eq_ok_iff.mp hItems
  obtain ⟨chunks, hChunks, _⟩ := PassContext.exists_chunks_of_compileNodes hNodes
  have hMakes := PassContext.forall₂_makes_fieldNodes hChunks
  obtain ⟨_, _, type, _, ⟨_, hType⟩, _⟩ := exists_of_forall₂_mem_right hMakes.flip hNode
  exact ⟨type, hType⟩

/-- The pass at a site registers the labels of its fields. -/
theorem Site.Succeeds.labelKey_mem_ownKeys {site : Site} (hSite : site.Succeeds)
    {node : FieldNode} (hNode : node ∈ site.fields)
    (hStorage : site.context.storageOf? node ≠ some .passthrough) :
    PassContext.labelKey site.path node ∈ site.ownKeys := by
  obtain ⟨type, hType⟩ := hSite.exists_typeOf? hNode
  have hShown : type.storage ≠ .passthrough := by
    intro hSame
    rw [PassContext.storageOf?_of_typeOf? hType, hSame] at hStorage
    contradiction
  exact mem_ownKeys_iff.mpr
    (.inr (.inr ⟨node, hNode, PassContext.labelKey_mem_fieldKeys hType hShown⟩))

/-! ## Keys of a run -/

section Run

variable {environment : Environment} {documents before after : List SchemaDocument}
  {document : SchemaDocument} {result : CompiledResult} {key : LanguageKey} {name : String}

/-- A result lists under a name what the passes of documents of that name
register for themselves. -/
theorem mem_languageKeys_iff (hResult : compile environment documents = .ok result) :
    key ∈ result.languageKeys.get name ↔
      ∃ pass ∈ (runWalk environment documents).emission.passes,
        pass.context.document.name = name ∧ key ∈ pass.site.ownKeys := by
  obtain ⟨hRun, _⟩ := compile_eq_ok_iff.mp hResult
  have hSites := runWalk_sites hRun
  have hNames (site : Site) (hSite : site ∈ SchemaDocument.rootSites environment [] documents)
      (pass : Pass) (hPass : pass ∈ site.walk.emission.passes) :
      pass.context.document = site.context.document :=
    (within_of_mem_passes (hSites.succeeds site hSite) hPass).document
  have hEntries (site : Site) (hSite : site ∈ SchemaDocument.rootSites environment [] documents) :
      (name, key) ∈ site.walk.emission.keys ↔
        site.context.document.name = name ∧ key ∈ site.keys := by
    rw [(hSites.succeeds site hSite).registers_walk.self]
    simp [Site.keys, and_comm, eq_comm]
  rw [mem_get_languageKeys_iff hResult, hSites.keys, hSites.passes]
  simp only [List.mem_flatMap]
  constructor
  · rintro ⟨site, hSite, hEntry⟩
    obtain ⟨hName, hKey⟩ := (hEntries site hSite).mp hEntry
    obtain ⟨pass, hPass, hOwn⟩ := (hSites.succeeds site hSite).mem_keys_iff.mp hKey
    exact ⟨pass, ⟨site, hSite, hPass⟩, by rw [hNames site hSite pass hPass, hName], hOwn⟩
  · rintro ⟨pass, ⟨site, hSite, hPass⟩, hName, hOwn⟩
    have hKey := (hSites.succeeds site hSite).mem_keys_iff.mpr ⟨pass, hPass, hOwn⟩
    rw [hNames site hSite pass hPass] at hName
    exact ⟨site, hSite, (hEntries site hSite).mpr ⟨hName, hKey⟩⟩

/-- The labels of the fields of a document are among its keys. -/
theorem labelKey_mem_languageKeys (hResult : compile environment documents = .ok result)
    (hSplit : documents = before ++ document :: after) {context : PassContext}
    (hReads : PassContext.ofDocument environment document = .ok context) {node : FieldNode}
    (hNode : node ∈ context.fieldNodes
      (document.rootNodes context (before.foldl SchemaDocument.declare [])))
    (hStorage : context.storageOf? node ≠ some .passthrough) :
    PassContext.labelKey document.rootPath node ∈ result.languageKeys.get document.name := by
  obtain ⟨hRun, _⟩ := compile_eq_ok_iff.mp hResult
  let site : Site := ⟨context, document.rootPath,
    document.rootNodes context (before.foldl SchemaDocument.declare [])⟩
  have hSite : site ∈ SchemaDocument.rootSites environment [] documents :=
    SchemaDocument.mem_rootSites_iff.mpr ⟨before, document, after, hSplit,
      SchemaDocument.rootSite?_eq_some_iff.mpr ⟨context, hReads, rfl⟩⟩
  obtain ⟨own, hOwn, hMade⟩ := exists_pass_of_mem_rootSites hRun hSite
  have hLabel := ((runWalk_sites hRun).succeeds site hSite).labelKey_mem_ownKeys hNode hStorage
  refine (mem_languageKeys_iff hResult).mpr ⟨own, hOwn, ?_, by rw [hMade]; exact hLabel⟩
  obtain rfl : own.context = context := congrArg Site.context hMade
  exact congrArg SchemaDocument.name (PassContext.document_of_ofDocument hReads)

end Run

end ContentSchema
