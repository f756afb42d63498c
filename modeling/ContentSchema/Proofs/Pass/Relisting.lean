import ContentSchema.Proofs.Pass.Emitted

/-!
# Documents with other nodes

A pass knows the document that it belongs to, but of the nodes it sees only those
that it is given.  The walk over given nodes is therefore the same whichever nodes
the document lists, up to the document that the finished passes name.

* `SchemaDocument.relist` lists other nodes in a document, and `Walk.relist` names
  that document in all passes of a walk.
* `Walk.relist_bind` says that this goes through chains of walks.
* `PassContext.relist_compilePass` is the statement about whole passes.

The nodes that are added in front of the authored ones do depend on these, so this
is NOT yet a statement about compiled documents.
-/

namespace ContentSchema

/-- The document with other authored nodes. -/
def SchemaDocument.relist (fields : List FieldNode) (document : SchemaDocument) :
    SchemaDocument :=
  { document with fields }

/-- The pass for a document with other authored nodes. -/
def PassContext.relist (fields : List FieldNode) (context : PassContext) : PassContext :=
  { context with document := context.document.relist fields }

/-- The finished pass of a document with other authored nodes. -/
def Pass.relist (fields : List FieldNode) (pass : Pass) : Pass :=
  { pass with context := pass.context.relist fields }

/-- An emission whose passes name a document with other authored nodes. -/
def Emission.relist (fields : List FieldNode) (emission : Emission) : Emission :=
  { emission with passes := emission.passes.map (Pass.relist fields) }

theorem Emission.relist_append (fields : List FieldNode) (a b : Emission) :
    (a ++ b).relist fields = a.relist fields ++ b.relist fields := by
  simp [relist, append_def, append]

/-! ## Chains of walks -/

namespace Walk

variable {α β : Type} {fields : List FieldNode}

/-- A walk whose passes name a document with other authored nodes. -/
def relist (fields : List FieldNode) (walk : Walk α) : Walk α :=
  ⟨walk.emission.relist fields, walk.result⟩

@[simp] theorem relist_pure (a : α) : relist fields (pure a) = pure a := rfl

@[simp] theorem relist_liftM (result : Except CompileError α) :
    relist fields (liftM result : Walk α) = liftM result := rfl

@[simp] theorem relist_bind (walk : Walk α) (next : α → Walk β) :
    relist fields (walk >>= next) = relist fields walk >>= fun a => relist fields (next a) := by
  cases hResult : walk.result with
  | error e =>
      have hRelisted : (relist fields walk).result = .error e := hResult
      rw [bind_of_error hResult, bind_of_error hRelisted]
      rfl
  | ok a =>
      have hRelisted : (relist fields walk).result = .ok a := hResult
      rw [bind_of_ok hResult, bind_of_ok hRelisted]
      show Walk.mk _ _ = _
      rw [Emission.relist_append]
      rfl

@[simp] theorem relist_map (f : α → β) (walk : Walk α) :
    relist fields (f <$> walk) = f <$> relist fields walk := by
  rw [← bind_pure_comp, ← bind_pure_comp, relist_bind]
  rfl

@[simp] theorem relist_ite {condition : Prop} [Decidable condition] (first second : Walk α) :
    relist fields (if condition then first else second) =
      if condition then relist fields first else relist fields second := by
  split <;> rfl

/-- What a step leaves may be changed by the step or by those that follow. -/
theorem liftM_map_bind {γ : Type} (step : Except CompileError α) (f : α → β)
    (next : β → Walk γ) :
    (liftM (step.map f) : Walk β) >>= next = (liftM step : Walk α) >>= fun a => next (f a) := by
  cases step <;> rfl

/-- A walk that only registers labels names no document in a pass. -/
theorem relist_of_labelsOnly {walk : Walk α} (hLabels : walk.LabelsOnly) :
    relist fields walk = walk := by
  obtain ⟨⟨keys, references, opened, passes, typeFields⟩, result⟩ := walk
  have hPasses : passes = [] := congrArg Emission.passes hLabels
  rw [hPasses]
  rfl

end Walk

/-! ## Steps -/

namespace PassContext

variable {context : PassContext} {path : LanguagePath} {fields : List FieldNode}

@[simp] theorem relist_fail {α : Type} (fault : Fault) :
    ((context.relist fields).fail fault : Walk α) = context.fail fault := rfl

@[simp] theorem relist_resolve (node : FieldNode) :
    (context.relist fields).resolve node = context.resolve node := rfl

@[simp] theorem relist_requireIdentifier (node : FieldNode) (typeName : String) :
    (context.relist fields).requireIdentifier node typeName =
      context.requireIdentifier node typeName := rfl

@[simp] theorem relist_claim (claims : Claims) (space : IdentifierSpace) (identifier : String) :
    (context.relist fields).claim claims space identifier =
      context.claim claims space identifier := rfl

@[simp] theorem relist_fieldIdentifier (node : FieldAttributes) (raw : String) :
    (context.relist fields).fieldIdentifier node raw = context.fieldIdentifier node raw := rfl

@[simp] theorem relist_paletteIdentifier (node : FieldAttributes) (raw : String) :
    (context.relist fields).paletteIdentifier node raw = context.paletteIdentifier node raw := rfl

@[simp] theorem relist_contentType :
    (context.relist fields).contentType = context.contentType := rfl

@[simp] theorem relist_register (suffix default : String) :
    (context.relist fields).register path suffix default =
      context.register path suffix default := rfl

@[simp] theorem relist_registerOptional (suffix : String) (text : Option String) :
    (context.relist fields).registerOptional path suffix text =
      context.registerOptional path suffix text := rfl

@[simp] theorem relist_registerLabels (node : FieldNode) (identifier : String)
    (type : TypeDescriptor) :
    (context.relist fields).registerLabels path node identifier type =
      context.registerLabels path node identifier type := rfl

@[simp] theorem relist_registerItemsFrom (labels : ItemLabels) (index : Nat)
    (items : List FieldItem) :
    (context.relist fields).registerItemsFrom path labels index items =
      context.registerItemsFrom path labels index items := by
  induction items generalizing index with
  | nil => rfl
  | cons item rest ih =>
      rw [registerItemsFrom, registerItemsFrom, ih]
      rfl

@[simp] theorem relist_registerItems (node : FieldNode) (type : TypeDescriptor) :
    (context.relist fields).registerItems path node type =
      context.registerItems path node type := by
  unfold registerItems
  rw [relist_registerItemsFrom]

@[simp] theorem relist_registerTitle (contentType : ContentType) :
    (context.relist fields).registerTitle path contentType =
      context.registerTitle path contentType := rfl

@[simp] theorem relist_compileTab (claims : Claims) (node : FieldNode) :
    (context.relist fields).compileTab path claims node = context.compileTab path claims node :=
  rfl

@[simp] theorem relist_ofCollection (node : FieldNode) (childTable : String) :
    (context.relist fields).ofCollection node childTable =
      (context.ofCollection node childTable).map (relist fields) := by
  unfold ofCollection
  cases node.tableSettings <;> rfl

@[simp] theorem relist_close (nodes : List FieldNode) (contentType : ContentType)
    (items : List PassItem) :
    Pass.close (context.relist fields) path nodes contentType items =
      (Pass.close context path nodes contentType items).map (Pass.relist fields) := by
  have hTable : Pass.tableOf (context.relist fields) items = Pass.tableOf context items := rfl
  unfold Pass.close
  rw [hTable]
  cases Pass.tableOf context items <;> rfl

end PassContext

/-! ## Nested forms -/

namespace FlexForm

variable {context : PassContext} {path : LanguagePath} {form : String} {fields : List FieldNode}

@[simp] theorem relist_take (space : IdentifierSpace) (taken : List String)
    (identifier : String) :
    take (context.relist fields) space taken identifier =
      take context space taken identifier := rfl

@[simp] theorem relist_leaf (place : Place) (node : FieldNode) :
    leaf (context.relist fields) path form place node = leaf context path form place node := by
  unfold leaf
  simp

@[simp] theorem relist_containerElements (taken : List String) (nodes : List FieldNode) :
    containerElements (context.relist fields) path form taken nodes =
      containerElements context path form taken nodes := by
  induction nodes generalizing taken with
  | nil => rfl
  | cons node rest ih => simp [containerElements, ih]

@[simp] theorem relist_containers (key : String) (taken : List String)
    (nodes : List FieldNode) :
    containers (context.relist fields) path form key taken nodes =
      containers context path form key taken nodes := by
  induction nodes generalizing taken with
  | nil => rfl
  | cons node rest ih => simp [containers, ih]

@[simp] theorem relist_sectionElement (node : FieldNode) (identifier : String) :
    sectionElement (context.relist fields) path form node identifier =
      sectionElement context path form node identifier := by
  unfold sectionElement
  simp

@[simp] theorem relist_sheetElements (taken : List String) (nodes : List FieldNode) :
    sheetElements (context.relist fields) path form taken nodes =
      sheetElements context path form taken nodes := by
  induction nodes generalizing taken with
  | nil => rfl
  | cons node rest ih => simp [sheetElements, ih]

@[simp] theorem relist_sheetTexts (sheet : FieldNode) (identifier : String) :
    sheetTexts (context.relist fields) path sheet identifier =
      sheetTexts context path sheet identifier := rfl

@[simp] theorem relist_sheets (sheetsTaken leavesTaken : List String) (nodes : List FieldNode) :
    sheets (context.relist fields) path form sheetsTaken leavesTaken nodes =
      sheets context path form sheetsTaken leavesTaken nodes := by
  induction nodes generalizing sheetsTaken leavesTaken with
  | nil => rfl
  | cons sheet rest ih => simp [sheets, ih]

/-- A nested form is built without regard to the nodes of the document. -/
@[simp] theorem relist_expand (nodes : List FieldNode) :
    expand (context.relist fields) path form nodes = expand context path form nodes := by
  unfold expand
  simp
  rfl

end FlexForm

/-! ## Nodes -/

namespace PassContext

variable {context : PassContext} {path : LanguagePath} {claims : Claims}
  {fields : List FieldNode}

/-- Whatever pass it is compiled in, a node is compiled alike for a document with
other authored nodes. -/
structure Relists (fields : List FieldNode) (node : FieldNode) : Prop where
  asNode : ∀ (context : PassContext) path claims,
    (context.relist fields).compileNode path claims node =
      Walk.relist fields (context.compileNode path claims node)
  asEntry : ∀ (context : PassContext) path palette claims,
    (context.relist fields).compileEntry path palette claims node =
      Walk.relist fields (context.compileEntry path palette claims node)

theorem relist_compileNodes {nodes : List FieldNode}
    (hNodes : ∀ node ∈ nodes, Relists fields node) :
    (context.relist fields).compileNodes path claims nodes =
      Walk.relist fields (context.compileNodes path claims nodes) := by
  induction nodes generalizing claims with
  | nil => rfl
  | cons node rest ih =>
      rw [List.forall_mem_cons] at hNodes
      simp [compileNodes, hNodes.1.asNode, ih hNodes.2]

theorem relist_compileEntries {palette : String} {nodes : List FieldNode}
    (hNodes : ∀ node ∈ nodes, Relists fields node) :
    (context.relist fields).compileEntries path palette claims nodes =
      Walk.relist fields (context.compileEntries path palette claims nodes) := by
  induction nodes generalizing claims with
  | nil => rfl
  | cons node rest ih =>
      rw [List.forall_mem_cons] at hNodes
      simp [compileEntries, hNodes.1.asEntry, ih hNodes.2]

theorem relist_compilePass_of_relists {nodes : List FieldNode}
    (hNodes : ∀ node ∈ nodes, Relists fields node) :
    (context.relist fields).compilePass path nodes (nodesWalk nodes) =
      Walk.relist fields (context.compilePass path nodes (nodesWalk nodes)) := by
  have hWalk (child : PassContext) (position : LanguagePath) :
      nodesWalk nodes (child.relist fields) position =
        Walk.relist fields (nodesWalk nodes child position) := by
    unfold nodesWalk
    rw [relist_compileNodes hNodes, Walk.relist_map]
  unfold compilePass
  simp only [relist_contentType, relist_registerTitle, hWalk, relist_close, Walk.relist_bind,
    Walk.relist_liftM, Walk.liftM_map_bind,
    Walk.relist_of_labelsOnly (labelsOnly_registerTitle _)]
  rfl

theorem relist_compileField {node : FieldNode} {type : TypeDescriptor}
    (hNested : ∀ child ∈ node.fields, Relists fields child) :
    (context.relist fields).compileField path claims type node (nodesWalk node.fields) =
      Walk.relist fields
        (context.compileField path claims type node (nodesWalk node.fields)) := by
  have hCollection (position : LanguagePath) (field : CompiledField) :
      (context.relist fields).expandCollection position node (nodesWalk node.fields) field =
        Walk.relist fields
          (context.expandCollection position node (nodesWalk node.fields) field) := by
    have hRefer (childTable : String) (field : CompiledField) :
        Walk.relist fields (refer childTable field) = refer childTable field := rfl
    unfold expandCollection
    simp only [relist_ofCollection, Walk.liftM_map_bind, relist_compilePass_of_relists hNested,
      Walk.relist_bind, Walk.relist_ite, Walk.relist_liftM, Walk.relist_pure, hRefer]
  unfold compileField
  simp only [relist_requireIdentifier, relist_claim, relist_fieldIdentifier,
    relist_registerLabels, relist_registerItems, FlexForm.relist_expand, hCollection,
    Walk.relist_bind, Walk.relist_ite, Walk.relist_liftM, Walk.relist_pure, Walk.relist_map,
    Walk.relist_of_labelsOnly, labelsOnly_registerLabels, labelsOnly_registerItems,
    FlexForm.labelsOnly_expand]

/-- A node is compiled alike, however deeply it is nested. -/
theorem relists (fields : List FieldNode) (node : FieldNode) : Relists fields node := by
  induction node using FieldNode.induction with
  | step node hNested =>
      have hField : ∀ (context : PassContext) path claims type,
          (context.relist fields).compileField path claims type node (nodesWalk node.fields) =
            Walk.relist fields
              (context.compileField path claims type node (nodesWalk node.fields)) :=
        fun _ _ _ _ => relist_compileField hNested
      have hEntries : ∀ (context : PassContext) path palette claims,
          (context.relist fields).compileEntries path palette claims node.fields =
            Walk.relist fields (context.compileEntries path palette claims node.fields) :=
        fun _ _ _ _ => relist_compileEntries hNested
      obtain ⟨attributes, nodes, container⟩ := node
      unfold nodesWalk at hField
      refine ⟨?_, ?_⟩
      · intro context path claims
        unfold compileNode compilePalette
        rw [Walk.relist_bind]
        refine bind_congr fun type => ?_
        cases type.kind <;> simp [hField, hEntries, Walk.relist_of_labelsOnly]
      · intro context path palette claims
        unfold compileEntry
        rw [Walk.relist_bind]
        refine bind_congr fun type => ?_
        cases type.kind <;> simp [hField, Walk.relist_of_labelsOnly]

/-- A pass over given nodes is compiled alike for a document with other authored
nodes. -/
theorem relist_compilePass (fields nodes : List FieldNode) :
    (context.relist fields).compilePass path nodes (nodesWalk nodes) =
      Walk.relist fields (context.compilePass path nodes (nodesWalk nodes)) :=
  relist_compilePass_of_relists fun node _ => relists fields node

end PassContext
end ContentSchema
