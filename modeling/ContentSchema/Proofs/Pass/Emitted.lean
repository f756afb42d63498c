import ContentSchema.Proofs.Run.Documents
import ContentSchema.Proofs.Walk.Labels

/-!
# Emitted passes

The passes of a run are exactly what compiling passes makes: each one is the
closed walk over its own nodes, in its own context.  A statement about passes
can therefore be proved of one pass at a time.

* `Walk.AllPasses` is preserved along a chain of walks.
* `Pass.Compiled` is what every pass of a run satisfies.
* `compiled_of_mem_passes` is that statement for whole runs.

A run that fails has passes as well, those that were finished before the error:
the statement does NOT suppose success.
-/

namespace ContentSchema

/-- Every pass that a walk emits has the property. -/
def Walk.AllPasses {α : Type} (property : Pass → Prop) (walk : Walk α) : Prop :=
  ∀ pass ∈ walk.emission.passes, property pass

namespace Walk

variable {α β : Type} {property : Pass → Prop}

theorem AllPasses.of_passes_eq_nil {walk : Walk α} (hNone : walk.emission.passes = []) :
    AllPasses property walk := by
  intro pass hPass
  rw [hNone] at hPass
  contradiction

@[simp] theorem allPasses_pure (a : α) : AllPasses property (pure a) :=
  .of_passes_eq_nil rfl

@[simp] theorem allPasses_liftM (result : Except CompileError α) :
    AllPasses property (liftM result : Walk α) :=
  .of_passes_eq_nil rfl

@[simp] theorem allPasses_fail (context : PassContext) (fault : Fault) :
    AllPasses property (context.fail fault : Walk α) :=
  .of_passes_eq_nil rfl

/-- The passes of a chain are those of its steps, as far as it gets. -/
@[simp] theorem allPasses_bind_iff {walk : Walk α} {next : α → Walk β} :
    AllPasses property (walk >>= next) ↔
      AllPasses property walk ∧ ∀ a, walk.result = .ok a → AllPasses property (next a) := by
  unfold AllPasses
  cases hResult : walk.result with
  | error e => simp [bind_of_error hResult]
  | ok a => simp [bind_of_ok hResult, or_imp, forall_and]

@[simp] theorem allPasses_map_iff {f : α → β} {walk : Walk α} :
    AllPasses property (f <$> walk) ↔ AllPasses property walk := by
  rw [← bind_pure_comp, allPasses_bind_iff]
  simp

@[simp] theorem allPasses_ite_iff {condition : Prop} [Decidable condition]
    {first second : Walk α} :
    AllPasses property (if condition then first else second) ↔
      (condition → AllPasses property first) ∧ (¬condition → AllPasses property second) := by
  by_cases hCondition : condition <;> simp [hCondition]

/-- A walk that only registers labels emits no pass. -/
theorem AllPasses.of_labelsOnly {walk : Walk α} (hLabels : walk.LabelsOnly) :
    AllPasses property walk := by
  have hNone : walk.emission.unlabelled.passes = [] := by
    rw [hLabels]
  exact .of_passes_eq_nil hNone

end Walk

/-! ## Walks that emit no pass -/

section LabelsOnly

variable {property : Pass → Prop} {context : PassContext} {path : LanguagePath}

@[simp] theorem Walk.allPasses_register (suffix default : String) :
    Walk.AllPasses property (context.register path suffix default) :=
  .of_labelsOnly (PassContext.labelsOnly_register suffix default)

@[simp] theorem Walk.allPasses_registerOptional (suffix : String) (text : Option String) :
    Walk.AllPasses property (context.registerOptional path suffix text) :=
  .of_labelsOnly (PassContext.labelsOnly_registerOptional suffix text)

@[simp] theorem PassContext.allPasses_registerLabels (node : FieldNode) (identifier : String)
    (type : TypeDescriptor) :
    Walk.AllPasses property (context.registerLabels path node identifier type) :=
  .of_labelsOnly (labelsOnly_registerLabels node identifier type)

@[simp] theorem PassContext.allPasses_registerItems (node : FieldNode) (type : TypeDescriptor) :
    Walk.AllPasses property (context.registerItems path node type) :=
  .of_labelsOnly (labelsOnly_registerItems node type)

@[simp] theorem PassContext.allPasses_registerTitle (contentType : ContentType) :
    Walk.AllPasses property (context.registerTitle path contentType) :=
  .of_labelsOnly (labelsOnly_registerTitle contentType)

@[simp] theorem PassContext.allPasses_compileTab (claims : Claims) (node : FieldNode) :
    Walk.AllPasses property (context.compileTab path claims node) :=
  .of_labelsOnly (labelsOnly_compileTab claims node)

@[simp] theorem FlexForm.allPasses_expand (form : String) (nodes : List FieldNode) :
    Walk.AllPasses property (expand context path form nodes) :=
  .of_labelsOnly (labelsOnly_expand nodes)

@[simp] theorem PassContext.allPasses_refer (childTable : String) (field : CompiledField) :
    Walk.AllPasses property (refer childTable field) :=
  .of_passes_eq_nil rfl

end LabelsOnly

/-! ## Compiled passes -/

/-- A pass is what closing the walk over its nodes makes. -/
def Pass.Compiled (pass : Pass) : Prop :=
  ∃ contentType claims, pass.context.contentType = .ok contentType ∧
    (pass.context.compileNodes pass.path {} pass.nodes).result = .ok (claims, pass.items) ∧
    Pass.close pass.context pass.path pass.nodes (pass.context.titledType pass.path contentType)
      pass.items = .ok pass

namespace PassContext

variable {context : PassContext} {path : LanguagePath} {claims : Claims}

/-- Whatever pass it is compiled in, a node emits compiled passes only. -/
structure EmitsCompiled (node : FieldNode) : Prop where
  asNode : ∀ (context : PassContext) path claims,
    Walk.AllPasses Pass.Compiled (context.compileNode path claims node)
  asEntry : ∀ (context : PassContext) path palette claims,
    Walk.AllPasses Pass.Compiled (context.compileEntry path palette claims node)

theorem allPasses_compileNodes {nodes : List FieldNode}
    (hNodes : ∀ node ∈ nodes, EmitsCompiled node) :
    Walk.AllPasses Pass.Compiled (context.compileNodes path claims nodes) := by
  induction nodes generalizing claims with
  | nil => simp [compileNodes]
  | cons node rest ih =>
      rw [List.forall_mem_cons] at hNodes
      simp [compileNodes, hNodes.1.asNode, ih hNodes.2]

theorem allPasses_compileEntries {palette : String} {nodes : List FieldNode}
    (hNodes : ∀ node ∈ nodes, EmitsCompiled node) :
    Walk.AllPasses Pass.Compiled (context.compileEntries path palette claims nodes) := by
  induction nodes generalizing claims with
  | nil => simp [compileEntries]
  | cons node rest ih =>
      rw [List.forall_mem_cons] at hNodes
      simp [compileEntries, hNodes.1.asEntry, ih hNodes.2]

/-- A pass emits the passes nested in it and then itself. -/
theorem allPasses_compilePass {nodes : List FieldNode}
    (hNodes : ∀ node ∈ nodes, EmitsCompiled node) :
    Walk.AllPasses Pass.Compiled (context.compilePass path nodes (nodesWalk nodes)) := by
  unfold compilePass
  simp only [Walk.allPasses_bind_iff, Walk.allPasses_liftM, allPasses_registerTitle, true_and,
    Walk.liftM_result, registerTitle_result]
  refine ⟨.of_passes_eq_nil rfl, ?_⟩
  intro _ _ contentType hType titled hTitled
  -- The walk emits the nested passes; the pass itself follows once it is closed.
  refine ⟨?_, ?_⟩
  · unfold nodesWalk
    rw [Walk.allPasses_map_iff]
    exact allPasses_compileNodes hNodes
  · intro items hItems pass hPass emitted hEmitted
    obtain rfl : emitted = pass := by simpa [Walk.emit] using hEmitted
    obtain ⟨claims, hWalk⟩ := nodesWalk_result_eq_ok_iff.mp hItems
    cases hTitled
    obtain ⟨table, _, hMade⟩ := Pass.close_eq_ok_iff.mp hPass
    subst hMade
    exact ⟨contentType, claims, hType, hWalk, hPass⟩

theorem allPasses_compileField {node : FieldNode} {type : TypeDescriptor}
    (hNested : ∀ child ∈ node.fields, EmitsCompiled child) :
    Walk.AllPasses Pass.Compiled
      (context.compileField path claims type node (nodesWalk node.fields)) := by
  have hPass : ∀ (child : PassContext) (position : LanguagePath), Walk.AllPasses Pass.Compiled
      (child.compilePass position node.fields (nodesWalk node.fields)) :=
    fun _ _ => allPasses_compilePass hNested
  unfold compileField expandCollection
  simp [hPass]

/-- No node emits anything but compiled passes, however deeply it is nested. -/
theorem emitsCompiled (node : FieldNode) : EmitsCompiled node := by
  induction node using FieldNode.induction with
  | step node hNested =>
      have hField : ∀ (context : PassContext) path claims type, Walk.AllPasses Pass.Compiled
          (context.compileField path claims type node (nodesWalk node.fields)) :=
        fun _ _ _ _ => allPasses_compileField hNested
      have hEntries : ∀ (context : PassContext) path palette claims,
          Walk.AllPasses Pass.Compiled
            (context.compileEntries path palette claims node.fields) :=
        fun _ _ _ _ => allPasses_compileEntries hNested
      obtain ⟨attributes, fields, container⟩ := node
      unfold nodesWalk at hField
      refine ⟨?_, ?_⟩
      · intro context path claims
        unfold compileNode compilePalette
        simp only [Walk.allPasses_bind_iff, Walk.allPasses_liftM, true_and]
        intro type _
        cases type.kind <;> simp [hField, hEntries]
      · intro context path palette claims
        unfold compileEntry
        simp only [Walk.allPasses_bind_iff, Walk.allPasses_liftM, true_and]
        intro type _
        cases type.kind <;> simp [hField]

end PassContext

/-! ## Runs -/

namespace SchemaDocument

theorem allPasses_compile (environment : Environment) (typeFields : Entries String)
    (document : SchemaDocument) :
    Walk.AllPasses Pass.Compiled (document.compile environment typeFields) := by
  unfold compile
  simp only [Walk.allPasses_bind_iff, Walk.allPasses_liftM, Walk.allPasses_pure, true_and,
    implies_true, and_true]
  intro _ _ context _
  exact PassContext.allPasses_compilePass fun node _ => PassContext.emitsCompiled node

theorem allPasses_compileAll (environment : Environment) (typeFields : Entries String)
    (documents : List SchemaDocument) :
    Walk.AllPasses Pass.Compiled (compileAll environment typeFields documents) := by
  induction documents generalizing typeFields with
  | nil => simp [compileAll]
  | cons document rest ih =>
      unfold compileAll
      rw [Walk.allPasses_bind_iff]
      refine ⟨allPasses_compile environment typeFields document, ?_⟩
      intro context _
      cases context.typeField with
      | none => exact ih typeFields
      | some typeField =>
          rw [Walk.allPasses_bind_iff]
          exact ⟨.of_passes_eq_nil rfl, fun _ _ => ih _⟩

end SchemaDocument

/-- Every pass of a run, at whatever depth, is a compiled one. -/
theorem compiled_of_mem_passes {environment : Environment} {documents : List SchemaDocument}
    {pass : Pass} (hPass : pass ∈ (runWalk environment documents).emission.passes) :
    pass.Compiled :=
  SchemaDocument.allPasses_compileAll environment [] documents pass hPass

end ContentSchema
