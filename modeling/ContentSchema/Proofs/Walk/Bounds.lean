import ContentSchema.Proofs.Run.Documents
import ContentSchema.Proofs.Walk.Keys

/-!
# Bounds of walks

Errors and keys arise at many places of a walk, some of them far below the
document that the walk started with.  What holds of all of them is proved once:
whatever the bounds are, a walk keeps them if they admit the faults of fields, the
keys in the language file and the way in which the name of the document is split.

* `Keeps` and `Walk.Keeps` say that a step stays within bounds; a chain of steps
  does exactly if its steps do.
* `PassContext.keepsBounds` is the statement about a node with all that is nested
  in it, and `SchemaDocument.keeps_compile` the one about a document.

The bounds hold of walks that fail as well.  That a walk succeeds is NOT told.
-/

namespace ContentSchema

/-- What a walk may leave behind. -/
structure Bounds where
  /-- The errors that it may end with. -/
  error : CompileError → Prop
  /-- The keys that it may register, with the names of documents. -/
  key : String × LanguageKey → Prop

/-! ## Chains of steps -/

/-- Whatever error the step ends with is within the bounds. -/
def Keeps {α : Type} (bounds : Bounds) (step : Except CompileError α) : Prop :=
  ∀ error, step = .error error → bounds.error error

section Steps

variable {α β : Type} {bounds : Bounds}

@[simp] theorem keeps_ok (a : α) : Keeps bounds (.ok a) :=
  fun _ hError => nomatch hError

theorem keeps_of_eq_ok {step : Except CompileError α} {a : α} (hStep : step = .ok a) :
    Keeps bounds step := by
  rw [hStep]
  exact keeps_ok a

@[simp] theorem keeps_pure (a : α) : Keeps bounds (pure a) :=
  keeps_ok a

@[simp] theorem keeps_error_iff {error : CompileError} :
    Keeps bounds (.error error : Except CompileError α) ↔ bounds.error error := by
  simp [Keeps]

@[simp] theorem keeps_throw_iff {error : CompileError} :
    Keeps bounds (throw error : Except CompileError α) ↔ bounds.error error :=
  keeps_error_iff

@[simp] theorem keeps_bind_iff {step : Except CompileError α}
    {next : α → Except CompileError β} :
    Keeps bounds (step >>= next) ↔
      Keeps bounds step ∧ ∀ a, step = .ok a → Keeps bounds (next a) := by
  cases step with
  | error e =>
      show Keeps bounds (.error e) ↔ _
      simp
  | ok a =>
      show Keeps bounds (next a) ↔ _
      simp

@[simp] theorem keeps_map_iff {f : α → β} {step : Except CompileError α} :
    Keeps bounds (f <$> step) ↔ Keeps bounds step := by
  rw [← bind_pure_comp, keeps_bind_iff]
  simp

@[simp] theorem keeps_ite_iff {condition : Prop} [Decidable condition]
    {first second : Except CompileError α} :
    Keeps bounds (if condition then first else second) ↔
      (condition → Keeps bounds first) ∧ (¬condition → Keeps bounds second) := by
  by_cases hCondition : condition <;> simp [hCondition]

theorem keeps_mapM {step : α → Except CompileError β} {items : List α}
    (hItems : ∀ item ∈ items, Keeps bounds (step item)) : Keeps bounds (items.mapM step) := by
  induction items with
  | nil => exact keeps_pure _
  | cons item rest ih =>
      obtain ⟨hItem, hRest⟩ := List.forall_mem_cons.mp hItems
      rw [List.mapM_cons, keeps_bind_iff]
      refine ⟨hItem, fun _ _ => ?_⟩
      rw [keeps_bind_iff]
      exact ⟨ih hRest, fun _ _ => keeps_pure _⟩

end Steps

namespace Walk

variable {α β : Type} {bounds : Bounds}

/-- Whatever error the walk ends with is within the bounds, and so are all keys
that it registers until then. -/
structure Keeps (bounds : Bounds) (walk : Walk α) : Prop where
  result : ContentSchema.Keeps bounds walk.result
  keys : ∀ entry ∈ walk.emission.keys, bounds.key entry

@[simp] theorem keeps_pure (a : α) : Keeps bounds (pure a) :=
  ⟨keeps_ok a, fun _ hEntry => nomatch hEntry⟩

@[simp] theorem keeps_emit_iff {emission : Emission} :
    Keeps bounds (emit emission) ↔ ∀ entry ∈ emission.keys, bounds.key entry :=
  ⟨Keeps.keys, fun hKeys => ⟨keeps_ok (), hKeys⟩⟩

@[simp] theorem keeps_liftM_iff {step : Except CompileError α} :
    Keeps bounds (liftM step : Walk α) ↔ ContentSchema.Keeps bounds step :=
  ⟨Keeps.result, fun hStep => ⟨hStep, fun _ hEntry => nomatch hEntry⟩⟩

/-- A chain keeps the bounds exactly when its steps do, as far as it gets. -/
@[simp] theorem keeps_bind_iff {walk : Walk α} {next : α → Walk β} :
    Keeps bounds (walk >>= next) ↔
      Keeps bounds walk ∧ ∀ a, walk.result = .ok a → Keeps bounds (next a) := by
  cases hResult : walk.result with
  | error e =>
      rw [bind_of_error hResult]
      constructor
      · rintro ⟨hError, hKeys⟩
        exact ⟨⟨by rw [hResult]; exact keeps_error_iff.mpr (hError e rfl), hKeys⟩, nofun⟩
      · rintro ⟨⟨hError, hKeys⟩, _⟩
        rw [hResult] at hError
        exact ⟨keeps_error_iff.mpr (hError e rfl), hKeys⟩
  | ok a =>
      rw [bind_of_ok hResult]
      constructor
      · rintro ⟨hNext, hKeys⟩
        rw [Emission.keys_append, List.forall_mem_append] at hKeys
        refine ⟨⟨keeps_of_eq_ok hResult, hKeys.1⟩, ?_⟩
        intro b hSame
        cases hSame
        exact ⟨hNext, hKeys.2⟩
      · rintro ⟨⟨_, hKeys⟩, hNext⟩
        refine ⟨(hNext a rfl).result, ?_⟩
        rw [Emission.keys_append, List.forall_mem_append]
        exact ⟨hKeys, (hNext a rfl).keys⟩

@[simp] theorem keeps_map_iff {f : α → β} {walk : Walk α} :
    Keeps bounds (f <$> walk) ↔ Keeps bounds walk := by
  rw [← bind_pure_comp, keeps_bind_iff]
  simp

@[simp] theorem keeps_ite_iff {condition : Prop} [Decidable condition]
    {first second : Walk α} :
    Keeps bounds (if condition then first else second) ↔
      (condition → Keeps bounds first) ∧ (¬condition → Keeps bounds second) := by
  by_cases hCondition : condition <;> simp [hCondition]

end Walk

/-! ## What the bounds admit -/

/-- The faults of a document as a whole.  All others are those of its fields. -/
inductive Fault.OfDocument : Fault → Prop where
  | invalidQualifiedName : OfDocument .invalidQualifiedName
  | missingTable : OfDocument .missingTable
  | missingTypeName : OfDocument .missingTypeName
  | missingTypeField : OfDocument (.missingIdentifier "typeField")
  | invalidEnumValue (name value : String) (valid : List String) :
      OfDocument (.invalidEnumValue name value valid)

theorem Fault.ofDocument_missingIdentifier_iff {context : String} :
    OfDocument (.missingIdentifier context) ↔ context = "typeField" := by
  constructor
  · intro hFault
    cases hFault
    rfl
  · rintro rfl
    exact .missingTypeField

namespace Bounds

/-- The bounds leave room for the fields of a document: for every fault of theirs, and
for what comes of splitting its name. -/
structure AdmitFields (bounds : Bounds) (document : SchemaDocument) : Prop where
  fault : ∀ fault : Fault, ¬fault.OfDocument → bounds.error (document.fault fault)
  name : Keeps bounds (splitQualifiedName document.name)

/-- The bounds leave room for everything that a document of the name registers in the
language file. -/
def AdmitKeys (bounds : Bounds) (name file : String) : Prop :=
  ∀ path : LanguagePath, path.base = file → ∀ suffix text,
    bounds.key (name, path.entry suffix text)

end Bounds

@[simp] theorem LanguagePath.base_push (path : LanguagePath) (segment : String) :
    (path.push segment).base = path.base := rfl

/-- The word before the name of a type tells its fault from those of documents. -/
theorem Fault.not_ofDocument_type (name : String) :
    ¬OfDocument (.missingIdentifier ("type " ++ name)) := by
  rw [ofDocument_missingIdentifier_iff]
  intro hSame
  have hChars := congrArg (fun text : String => text.toList[4]?) hSame
  simp at hChars

/-! ## Identifiers -/

namespace PassContext

variable {context : PassContext} {bounds : Bounds}

theorem keeps_assignFieldIdentifier {owner : String} (policy : PrefixPolicy)
    (node : FieldAttributes) (raw : String) (onRootTable : Bool)
    (hName : Keeps bounds (splitQualifiedName owner)) :
    Keeps bounds (assignFieldIdentifier owner policy node raw onRootTable) := by
  unfold assignFieldIdentifier assignIdentifier prefixFor
  simp [hName]

variable (hFields : bounds.AdmitFields context.document)
include hFields

theorem keeps_error {α : Type} {fault : Fault} (hFault : ¬fault.OfDocument) :
    Keeps bounds (.error (context.fault fault) : Except CompileError α) :=
  keeps_error_iff.mpr (hFields.fault fault hFault)

theorem keeps_fail {α : Type} {fault : Fault} (hFault : ¬fault.OfDocument) :
    Walk.Keeps bounds (context.fail fault : Walk α) :=
  Walk.keeps_liftM_iff.mpr (keeps_error hFields hFault)

theorem keeps_ofCollection (node : FieldNode) (childTable : String) :
    Keeps bounds (context.ofCollection node childTable) := by
  unfold ofCollection
  cases node.tableSettings with
  | ok settings => exact keeps_ok _
  | error cause => exact keeps_error hFields nofun

theorem keeps_contentType : Keeps bounds context.contentType := by
  unfold contentType
  simp [hFields.name]

theorem keeps_claim (claims : Claims) (space : IdentifierSpace) (identifier : String) :
    Keeps bounds (context.claim claims space identifier) := by
  unfold claim
  cases claims.claim? space identifier with
  | some claims => exact keeps_ok _
  | none => exact keeps_error hFields nofun

theorem keeps_fieldIdentifier (node : FieldAttributes) (raw : String) :
    Keeps bounds (context.fieldIdentifier node raw) := by
  unfold fieldIdentifier
  simp [keeps_assignFieldIdentifier _ _ _ _ hFields.name]

theorem keeps_paletteIdentifier (node : FieldAttributes) (raw : String) :
    Keeps bounds (context.paletteIdentifier node raw) :=
  keeps_assignFieldIdentifier _ _ _ _ hFields.name

theorem keeps_requireIdentifier (node : FieldNode) (typeName : String) :
    Keeps bounds (context.requireIdentifier node typeName) := by
  unfold requireIdentifier
  cases node.identifier? with
  | some identifier => exact keeps_ok _
  | none => exact keeps_error hFields (Fault.not_ofDocument_type _)

theorem keeps_resolve (node : FieldNode) : Keeps bounds (context.resolve node) := by
  have hAuthored : Keeps bounds (context.authoredType node) := by
    unfold authoredType
    cases node.type with
    | none => exact keeps_error hFields nofun
    | some typeName =>
        dsimp only
        split
        · exact keeps_error hFields nofun
        · simp [keeps_requireIdentifier hFields]
  unfold resolve
  rw [keeps_ite_iff]
  refine ⟨fun _ => ?_, fun _ => hAuthored⟩
  rw [keeps_bind_iff]
  refine ⟨keeps_requireIdentifier hFields node _, ?_⟩
  intro identifier _
  cases context.environment.baseSchema.get? context.table identifier with
  | none => exact hAuthored
  | some type => exact keeps_pure type

theorem keeps_close (path : LanguagePath) (nodes : List FieldNode) (contentType : ContentType)
    (items : List PassItem) : Keeps bounds (Pass.close context path nodes contentType items) := by
  have hColumn : ∀ names entry, Keeps bounds (Pass.sortColumn context names entry) := by
    intro names entry
    unfold Pass.sortColumn
    cases Pass.sortOrder? entry.order with
    | some order => exact keeps_ok _
    | none => exact keeps_error hFields nofun
  unfold Pass.close Pass.tableOf
  cases hSort : context.settings.sortField with
  | none => simp [hSort]
  | some setting => simp [hSort, keeps_mapM fun entry _ => hColumn _ entry]

theorem keeps_take (space : IdentifierSpace) (taken : List String) (identifier : String) :
    Keeps bounds (FlexForm.take context space taken identifier) := by
  unfold FlexForm.take
  rw [keeps_ite_iff]
  exact ⟨fun _ => keeps_error hFields nofun, fun _ => keeps_ok _⟩

end PassContext

/-! ## Labels -/

namespace PassContext

variable {context : PassContext} {path : LanguagePath} {bounds : Bounds}

@[simp] theorem keeps_refer (childTable : String) (field : CompiledField) :
    Walk.Keeps bounds (refer childTable field) :=
  Walk.keeps_emit_iff.mpr nofun

variable (hKeys : bounds.AdmitKeys context.document.name path.base)
include hKeys

theorem keeps_register (suffix default : String) :
    Walk.Keeps bounds (context.register path suffix default) := by
  unfold register
  rw [Walk.keeps_bind_iff, Walk.keeps_emit_iff]
  refine ⟨?_, fun _ _ => Walk.keeps_pure _⟩
  intro entry hEntry
  rw [List.mem_singleton.mp hEntry]
  exact hKeys path rfl suffix default

theorem keeps_registerOptional (suffix : String) (text : Option String) :
    Walk.Keeps bounds (context.registerOptional path suffix text) := by
  unfold registerOptional
  cases text <;> simp [keeps_register hKeys]

theorem keeps_registerLabels (node : FieldNode) (identifier : String) (type : TypeDescriptor) :
    Walk.Keeps bounds (context.registerLabels path node identifier type) := by
  unfold registerLabels
  simp [keeps_register hKeys, keeps_registerOptional hKeys]

theorem keeps_registerItemsFrom (labels : ItemLabels) (index : Nat) (items : List FieldItem) :
    Walk.Keeps bounds (context.registerItemsFrom path labels index items) := by
  induction items generalizing index with
  | nil => simp [registerItemsFrom]
  | cons item rest ih =>
      unfold registerItemsFrom registerItem
      cases item.label <;> simp [ih, keeps_register hKeys]

theorem keeps_registerItems (node : FieldNode) (type : TypeDescriptor) :
    Walk.Keeps bounds (context.registerItems path node type) := by
  unfold registerItems
  simp [keeps_registerItemsFrom hKeys]

theorem keeps_registerTitle (contentType : ContentType) :
    Walk.Keeps bounds (context.registerTitle path contentType) := by
  unfold registerTitle
  simp [keeps_register hKeys]

end PassContext

/-! ## Nested forms -/

namespace FlexForm

open PassContext

variable {context : PassContext} {path : LanguagePath} {form : String} {bounds : Bounds}
  (hFields : bounds.AdmitFields context.document)
include hFields

section

variable (hKeys : bounds.AdmitKeys context.document.name path.base)
include hKeys

theorem keeps_leaf (place : Place) (node : FieldNode) :
    Walk.Keeps bounds (leaf context path form place node) := by
  have hInside (segment : String) :
      bounds.AdmitKeys context.document.name (path.push segment).base := hKeys
  have hRefused (type : TypeDescriptor) : Walk.Keeps bounds
      (context.fail (.disallowedField form node.identifierText type.name) : Walk PUnit) :=
    keeps_fail hFields nofun
  unfold leaf
  simp [keeps_resolve hFields, keeps_requireIdentifier hFields, hRefused,
    keeps_registerLabels (hInside _), keeps_registerItems (hInside _)]

theorem keeps_containerElements (taken : List String) (nodes : List FieldNode) :
    Walk.Keeps bounds (containerElements context path form taken nodes) := by
  induction nodes generalizing taken with
  | nil => simp [containerElements]
  | cons node rest ih =>
      simp [containerElements, keeps_leaf hFields hKeys, keeps_take hFields, ih]

end

variable (hKeys : bounds.AdmitKeys context.document.name path.base)
include hKeys

theorem keeps_containers (key : String) (taken : List String) (nodes : List FieldNode) :
    Walk.Keeps bounds (containers context path form key taken nodes) := by
  have hInside (segment : String) :
      bounds.AdmitKeys context.document.name (path.push segment).base := hKeys
  induction nodes generalizing taken with
  | nil => simp [containers]
  | cons node rest ih =>
      have hRefused (identifier : String) : Walk.Keeps bounds
          (context.fail (.emptyContainer form identifier) : Walk PUnit) := by
        refine keeps_fail hFields ?_
        rintro ⟨⟩
      simp [containers, keeps_requireIdentifier hFields, keeps_take hFields, hRefused,
        keeps_register hKeys, keeps_containerElements hFields (hInside _), ih]

theorem keeps_sectionElement (node : FieldNode) (identifier : String) :
    Walk.Keeps bounds (sectionElement context path form node identifier) := by
  have hRefused : Walk.Keeps bounds
      (context.fail (.emptySection form identifier) : Walk PUnit) := keeps_fail hFields nofun
  unfold sectionElement
  simp [hRefused, keeps_register hKeys, keeps_containers hFields hKeys]

theorem keeps_sheetElements (taken : List String) (nodes : List FieldNode) :
    Walk.Keeps bounds (sheetElements context path form taken nodes) := by
  induction nodes generalizing taken with
  | nil => simp [sheetElements]
  | cons node rest ih =>
      simp [sheetElements, keeps_requireIdentifier hFields, keeps_take hFields,
        keeps_sectionElement hFields hKeys, keeps_leaf hFields hKeys, ih]

omit hFields in
theorem keeps_sheetTexts (sheet : FieldNode) (identifier : String) :
    Walk.Keeps bounds (sheetTexts context path sheet identifier) := by
  unfold sheetTexts
  simp [keeps_register hKeys, keeps_registerOptional hKeys]

theorem keeps_sheets (sheetsTaken leavesTaken : List String) (nodes : List FieldNode) :
    Walk.Keeps bounds (sheets context path form sheetsTaken leavesTaken nodes) := by
  induction nodes generalizing sheetsTaken leavesTaken with
  | nil => simp [sheets]
  | cons sheet rest ih =>
      simp [sheets, keeps_requireIdentifier hFields, keeps_take hFields,
        keeps_sheetTexts hKeys, keeps_sheetElements hFields hKeys, ih]

theorem keeps_expand (nodes : List FieldNode) :
    Walk.Keeps bounds (expand context path form nodes) := by
  unfold expand
  split
  · exact keeps_fail hFields nofun
  · simp [keeps_sheetElements hFields hKeys]
  · simp [keeps_sheets hFields hKeys]

end FlexForm

/-! ## Nodes -/

namespace PassContext

variable {context : PassContext} {path : LanguagePath} {claims : Claims} {bounds : Bounds}

/-- Whatever pass it is compiled in, a node keeps bounds that leave room for the
document and the language file of that pass. -/
structure KeepsBounds (bounds : Bounds) (node : FieldNode) : Prop where
  asNode : ∀ (context : PassContext) (path : LanguagePath) claims,
    bounds.AdmitFields context.document → bounds.AdmitKeys context.document.name path.base →
      Walk.Keeps bounds (context.compileNode path claims node)
  asEntry : ∀ (context : PassContext) (path : LanguagePath) palette claims,
    bounds.AdmitFields context.document → bounds.AdmitKeys context.document.name path.base →
      Walk.Keeps bounds (context.compileEntry path palette claims node)

section

variable (hFields : bounds.AdmitFields context.document)
  (hKeys : bounds.AdmitKeys context.document.name path.base)
include hFields hKeys

theorem keeps_compileNodes {nodes : List FieldNode}
    (hNodes : ∀ node ∈ nodes, KeepsBounds bounds node) :
    Walk.Keeps bounds (context.compileNodes path claims nodes) := by
  induction nodes generalizing claims with
  | nil => simp [compileNodes]
  | cons node rest ih =>
      rw [List.forall_mem_cons] at hNodes
      simp [compileNodes, hNodes.1.asNode _ _ _ hFields hKeys, ih hNodes.2]

theorem keeps_compileEntries {palette : String} {nodes : List FieldNode}
    (hNodes : ∀ node ∈ nodes, KeepsBounds bounds node) :
    Walk.Keeps bounds (context.compileEntries path palette claims nodes) := by
  induction nodes generalizing claims with
  | nil => simp [compileEntries]
  | cons node rest ih =>
      rw [List.forall_mem_cons] at hNodes
      simp [compileEntries, hNodes.1.asEntry _ _ _ _ hFields hKeys, ih hNodes.2]

theorem keeps_compilePass {nodes : List FieldNode}
    (hNodes : ∀ node ∈ nodes, KeepsBounds bounds node) :
    Walk.Keeps bounds (context.compilePass path nodes (nodesWalk nodes)) := by
  have hWalk : Walk.Keeps bounds (nodesWalk nodes context path) := by
    unfold nodesWalk
    rw [Walk.keeps_map_iff]
    exact keeps_compileNodes hFields hKeys hNodes
  unfold compilePass
  simp [keeps_contentType hFields, keeps_registerTitle hKeys, hWalk, keeps_close hFields]

theorem keeps_expandCollection {node : FieldNode}
    (hNested : ∀ child ∈ node.fields, KeepsBounds bounds child) (field : CompiledField) :
    Walk.Keeps bounds (context.expandCollection path node (nodesWalk node.fields) field) := by
  unfold expandCollection
  simp only [Walk.keeps_bind_iff, keeps_refer, true_and]
  intro _ _
  rw [Walk.keeps_ite_iff]
  refine ⟨fun _ => ?_, fun _ => Walk.keeps_pure _⟩
  simp only [Walk.keeps_bind_iff, Walk.keeps_liftM_iff, keeps_ofCollection hFields, true_and,
    Walk.liftM_result, Walk.keeps_pure, implies_true, and_true]
  intro child hChild
  -- The pass over the nested fields belongs to the same document.
  have hDocument := document_of_ofCollection hChild
  exact keeps_compilePass (by rw [hDocument]; exact hFields) (by rw [hDocument]; exact hKeys)
    hNested

theorem keeps_compileField {node : FieldNode} {type : TypeDescriptor}
    (hNested : ∀ child ∈ node.fields, KeepsBounds bounds child) :
    Walk.Keeps bounds (context.compileField path claims type node (nodesWalk node.fields)) := by
  have hInside (segment : String) :
      bounds.AdmitKeys context.document.name (path.push segment).base := hKeys
  unfold compileField
  simp [keeps_requireIdentifier hFields, keeps_claim hFields, keeps_fieldIdentifier hFields,
    keeps_registerLabels (hInside _), keeps_registerItems (hInside _),
    FlexForm.keeps_expand hFields (hInside _), keeps_expandCollection hFields (hInside _) hNested]

theorem keeps_compileTab (node : FieldNode) :
    Walk.Keeps bounds (context.compileTab path claims node) := by
  unfold compileTab
  simp [keeps_requireIdentifier hFields, keeps_claim hFields, keeps_register hKeys]

theorem keeps_compilePalette {node : FieldNode} {identifier : String}
    {entries : Claims → Walk (Claims × List PaletteEntry)}
    (hEntries : ∀ claims, Walk.Keeps bounds (entries claims)) :
    Walk.Keeps bounds (context.compilePalette path claims node identifier entries) := by
  unfold compilePalette
  simp [keeps_claim hFields, keeps_paletteIdentifier hFields, keeps_register hKeys,
    keeps_registerOptional hKeys, hEntries]

end

/-- A node keeps the bounds of its pass, however deep it is nested. -/
theorem keepsBounds (bounds : Bounds) (node : FieldNode) : KeepsBounds bounds node := by
  induction node using FieldNode.induction with
  | step node hNested =>
      have hField : ∀ (context : PassContext) (path : LanguagePath) claims type,
          bounds.AdmitFields context.document →
          bounds.AdmitKeys context.document.name path.base →
            Walk.Keeps bounds
              (context.compileField path claims type node (nodesWalk node.fields)) :=
        fun _ _ _ _ hFields hKeys => keeps_compileField hFields hKeys hNested
      have hEntries : ∀ (context : PassContext) (path : LanguagePath) palette claims,
          bounds.AdmitFields context.document →
          bounds.AdmitKeys context.document.name path.base →
            Walk.Keeps bounds (context.compileEntries path palette claims node.fields) :=
        fun _ _ _ _ hFields hKeys => keeps_compileEntries hFields hKeys hNested
      obtain ⟨attributes, fields, container⟩ := node
      unfold nodesWalk at hField
      refine ⟨?_, ?_⟩
      · intro context path claims hFields hKeys
        unfold compileNode
        simp only [Walk.keeps_bind_iff, Walk.keeps_liftM_iff, keeps_resolve hFields, true_and]
        intro type _
        cases type.kind with
        | linebreak => exact keeps_fail hFields nofun
        | _ =>
            simp [hField _ _ _ _ hFields hKeys, keeps_compileTab hFields hKeys,
              keeps_compilePalette hFields hKeys, keeps_requireIdentifier hFields,
              hEntries _ _ _ _ hFields hKeys]
      · intro context path palette claims hFields hKeys
        unfold compileEntry
        simp only [Walk.keeps_bind_iff, Walk.keeps_liftM_iff, keeps_resolve hFields, true_and]
        intro type _
        cases type.kind with
        | palette => exact keeps_fail hFields nofun
        | tab => exact keeps_fail hFields nofun
        | _ => simp [hField _ _ _ _ hFields hKeys]

end PassContext

/-- A document keeps bounds that leave room for its fields and its language file, if
nothing is wrong with the document as a whole or the bounds admit that as well. -/
theorem SchemaDocument.keeps_compile {bounds : Bounds} {document : SchemaDocument}
    (environment : Environment) (typeFields : Entries String)
    (hFields : bounds.AdmitFields document)
    (hKeys : bounds.AdmitKeys document.name document.languageFileReference)
    (hValidate : Keeps bounds document.validate)
    (hContext : Keeps bounds (PassContext.ofDocument environment document)) :
    Walk.Keeps bounds (document.compile environment typeFields) := by
  unfold compile
  simp only [Walk.keeps_bind_iff, Walk.keeps_liftM_iff, hValidate, hContext, Walk.keeps_pure,
    true_and, implies_true, and_true, Walk.liftM_result]
  intro _ _ context hMade
  have hDocument := PassContext.document_of_ofDocument hMade
  exact PassContext.keeps_compilePass (by rw [hDocument]; exact hFields)
    (by rw [hDocument]; exact hKeys) fun node _ => PassContext.keepsBounds bounds node

end ContentSchema
