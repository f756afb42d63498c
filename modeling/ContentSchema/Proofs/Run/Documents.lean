import ContentSchema.Proofs.Pass.Steps

/-!
# Runs over documents

What a run over a list of documents yields, told from the walk over them: the
result is made of what the walk emitted, and a document succeeds exactly when it
is valid and the pass over its nodes succeeds.

A run starts from nothing, so what an earlier run declared does NOT matter.
-/

namespace ContentSchema

/-! ## Documents -/

namespace PassContext

/-- The name of the document of the pass has its two parts. -/
def Named (context : PassContext) : Prop :=
  ∃ parts, splitQualifiedName context.document.name = .ok parts

theorem document_of_ofDocument {environment : Environment} {document : SchemaDocument}
    {context : PassContext} (hContext : ofDocument environment document = .ok context) :
    context.document = document := by
  unfold ofDocument at hContext
  split at hContext
  · contradiction
  · obtain ⟨_, _, hMade⟩ := bind_eq_ok_iff.mp hContext
    cases hMade
    rfl

/-- A nested pass belongs to the same document. -/
theorem document_of_ofCollection {context child : PassContext} {node : FieldNode}
    {childTable : String} (hChild : context.ofCollection node childTable = .ok child) :
    child.document = context.document := by
  unfold ofCollection at hChild
  split at hChild
  · contradiction
  · cases hChild
    rfl

theorem Named.ofCollection {context child : PassContext} {node : FieldNode}
    {childTable : String} (hNamed : context.Named)
    (hChild : context.ofCollection node childTable = .ok child) : child.Named := by
  rw [Named, document_of_ofCollection hChild]
  exact hNamed

end PassContext

namespace SchemaDocument

/-- The name of a valid document has its two parts. -/
theorem exists_splitQualifiedName_of_validate {document : SchemaDocument}
    (hValid : document.validate = .ok ()) :
    ∃ parts, splitQualifiedName document.name = .ok parts := by
  unfold validate at hValid
  obtain ⟨parts, hParts, _⟩ := bind_eq_ok_iff.mp hValid
  exact ⟨parts, hParts⟩

/-- The position of the pass over a document. -/
def rootPath (document : SchemaDocument) : LanguagePath :=
  ⟨document.languageFileReference, []⟩

/-- The nodes that the pass over a document visits: the added ones and then the
authored ones. -/
def rootNodes (document : SchemaDocument) (context : PassContext)
    (typeFields : Entries String) : List FieldNode :=
  context.addedNodes typeFields ++ document.fields

theorem compile_result_eq_ok_iff {environment : Environment} {typeFields : Entries String}
    {document : SchemaDocument} {context : PassContext} :
    (document.compile environment typeFields).result = .ok context ↔
      document.validate = .ok () ∧ PassContext.ofDocument environment document = .ok context ∧
        (context.compilePass document.rootPath (document.rootNodes context typeFields)
          (PassContext.nodesWalk (document.rootNodes context typeFields))).result = .ok () := by
  unfold compile
  simp only [Walk.bind_result_eq_ok_iff, Walk.liftM_result, Walk.pure_result]
  constructor
  · rintro ⟨_, hValid, _, hContext, _, hPass, hResult⟩
    cases hResult
    exact ⟨hValid, hContext, hPass⟩
  · rintro ⟨hValid, hContext, hPass⟩
    exact ⟨(), hValid, context, hContext, (), hPass, rfl⟩

/-- The discriminator columns declared once a document is compiled. -/
def declared (context : PassContext) (typeFields : Entries String) : Entries String :=
  match context.typeField with
  | some typeField => noteTypeField typeFields context.table typeField
  | none => typeFields

theorem compileAll_cons_result_eq_ok_iff {environment : Environment} {typeFields : Entries String}
    {document : SchemaDocument} {rest : List SchemaDocument} :
    (compileAll environment typeFields (document :: rest)).result = .ok () ↔
      ∃ context, (document.compile environment typeFields).result = .ok context ∧
        (compileAll environment (declared context typeFields) rest).result = .ok () := by
  rw [compileAll, Walk.bind_result_eq_ok_iff]
  apply exists_congr
  intro context
  apply and_congr_right
  intro _
  unfold declared
  cases context.typeField with
  | none => rfl
  | some typeField =>
      rw [Walk.bind_result_eq_ok_iff]
      simp

end SchemaDocument

/-- The pass over a valid document belongs to a name with two parts. -/
theorem PassContext.named_of_ofDocument {environment : Environment} {document : SchemaDocument}
    {context : PassContext} (hValid : document.validate = .ok ())
    (hContext : ofDocument environment document = .ok context) : context.Named := by
  rw [Named, document_of_ofDocument hContext]
  exact SchemaDocument.exists_splitQualifiedName_of_validate hValid

/-! ## Results -/

/-- The walk of a run over documents. -/
def runWalk (environment : Environment) (documents : List SchemaDocument) : Walk Unit :=
  SchemaDocument.compileAll environment [] documents

/-- What a run yields that emitted `emission` and met no error. -/
def resultOf (emission : Emission) : CompiledResult where
  languageKeys := (({} : Scratch).keep emission).languageKeys
  parentReferences := (({} : Scratch).keep emission).parentReferences
  tables := mergeTables emission.contributions

/-- A run succeeds exactly when its walk does, and its result is made of what
the walk emitted. -/
theorem compile_eq_ok_iff {environment : Environment} {documents : List SchemaDocument}
    {result : CompiledResult} :
    compile environment documents = .ok result ↔
      (runWalk environment documents).result = .ok () ∧
        result = resultOf (runWalk environment documents).emission := by
  unfold compile Compiler.compile runWalk resultOf
  cases hWalk : (SchemaDocument.compileAll environment [] documents).result with
  | error e => simp [Compiler.reset, hWalk]
  | ok _ => simp [Compiler.reset, hWalk, eq_comm]

/-- A run yields a result exactly when its walk succeeds. -/
theorem exists_result_iff {environment : Environment} {documents : List SchemaDocument} :
    (∃ result, compile environment documents = .ok result) ↔
      (runWalk environment documents).result = .ok () := by
  simp [compile_eq_ok_iff]

end ContentSchema
