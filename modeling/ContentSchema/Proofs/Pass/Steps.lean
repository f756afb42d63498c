import ContentSchema.Compiler.Basic
import ContentSchema.Proofs.FlexForm.Grammar

/-!
# Steps of a pass

Every function of the walk over a pass has one statement here, which says when
its step succeeds and with what.  What is proved about whole passes cites these
statements and opens none of the functions again.

* `FieldNode.induction` is the induction that the walk follows: a statement
  holds of a node once it holds of the nodes nested in it.
* `PassContext.compileNode_result_eq_ok_iff` and its siblings tell what a
  successful step has done.

Containers of sections are NOT nested nodes in this sense: the walk over a pass
never enters them.
-/

namespace ContentSchema

namespace FieldNode

mutual

/-- A statement about nodes follows once it follows from the nested ones. -/
theorem induction {P : FieldNode → Prop}
    (step : ∀ node : FieldNode, (∀ child ∈ node.fields, P child) → P node) :
    ∀ node : FieldNode, P node
  | ⟨attributes, fields, container⟩ =>
      step ⟨attributes, fields, container⟩ (inductionAll step fields)

theorem inductionAll {P : FieldNode → Prop}
    (step : ∀ node : FieldNode, (∀ child ∈ node.fields, P child) → P node) :
    ∀ nodes : List FieldNode, ∀ node ∈ nodes, P node
  | [], _, hNode => nomatch hNode
  | node :: rest, other, hOther => by
      rcases List.mem_cons.mp hOther with hHere | hRest
      · rw [hHere]
        exact induction step node
      · exact inductionAll step rest other hRest

end

end FieldNode

/-! ## Closing -/

namespace Pass

/-- The sorting columns of a pass, resolved. -/
def sortColumns (context : PassContext) (names : Entries String) :
    Except CompileError (List SortColumn) :=
  match context.settings.sortField with
  | some setting => setting.entries.mapM (sortColumn context names)
  | none => .ok []

/-- The table of a pass with the given sorting columns. -/
def tableWith (context : PassContext) (items : List PassItem) (sortFields : List SortColumn) :
    TableDefinition where
  table := context.table
  isRootTable := context.isRootTable
  typeField := context.typeField
  fields := Entries.mapValues (resolveCondition (identifierMap items))
    (Entries.ofList ((compiledFields items).map fun field => (field.uniqueIdentifier, field)))
  palettes := Entries.ofList
    ((items.filterMap PassItem.palette?).map fun palette => (palette.identifier, palette))
  aggregateRoot := context.settings.aggregateRoot
  labelField := match context.settings.labelField with
    | some labels => labels.identifiers.map (resolveIdentifier (identifierMap items))
    | none => []
  fallbackLabelFields :=
    context.settings.fallbackLabelFields.map (resolveIdentifier (identifierMap items))
  sortFields
  rootLevelType := context.settings.rootLevelType
  appendLabel := context.settings.appendLabel
  capabilities := context.settings.capabilities

theorem tableOf_eq_ok_iff {context : PassContext} {items : List PassItem}
    {table : TableDefinition} :
    tableOf context items = .ok table ↔
      ∃ sortFields, sortColumns context (identifierMap items) = .ok sortFields ∧
        table = tableWith context items sortFields := by
  unfold tableOf sortColumns
  cases hSort : context.settings.sortField with
  | none =>
      simp only [hSort, bind_eq_ok_iff]
      constructor
      · rintro ⟨sortFields, hColumns, hTable⟩
        cases hTable
        exact ⟨sortFields, hColumns, rfl⟩
      · rintro ⟨sortFields, hColumns, rfl⟩
        exact ⟨sortFields, hColumns, rfl⟩
  | some setting =>
      simp only [hSort, bind_eq_ok_iff]
      constructor
      · rintro ⟨sortFields, hColumns, hTable⟩
        cases hTable
        exact ⟨sortFields, hColumns, rfl⟩
      · rintro ⟨sortFields, hColumns, rfl⟩
        exact ⟨sortFields, hColumns, rfl⟩

/-- The content type of a pass once its table is known. -/
def shownType (context : PassContext) (contentType : ContentType) (items : List PassItem)
    (table : TableDefinition) : ContentType :=
  { contentType with
    showItems := items.map PassItem.showItem
    overrideColumns := overrideColumns context table }

theorem close_eq_ok_iff {context : PassContext} {path : LanguagePath} {nodes : List FieldNode}
    {contentType : ContentType} {items : List PassItem} {pass : Pass} :
    close context path nodes contentType items = .ok pass ↔
      ∃ table, tableOf context items = .ok table ∧
        pass = { context, path, nodes, items, table
                 contentType := shownType context contentType items table } := by
  unfold close
  rw [bind_eq_ok_iff]
  constructor
  · rintro ⟨table, hTable, hPass⟩
    cases hPass
    exact ⟨table, hTable, rfl⟩
  · rintro ⟨table, hTable, rfl⟩
    exact ⟨table, hTable, rfl⟩

end Pass

/-! ## Whole passes -/

namespace PassContext

variable {context : PassContext} {path : LanguagePath} {claims claims' : Claims}
  {node : FieldNode}

/-- The walk over the nodes of a nested pass. -/
def nodesWalk (nodes : List FieldNode) : NestedWalk :=
  fun context path => Prod.snd <$> context.compileNodes path {} nodes

theorem nodesWalk_result_eq_ok_iff {nodes : List FieldNode} {items : List PassItem} :
    (nodesWalk nodes context path).result = .ok items ↔
      ∃ claims, (context.compileNodes path {} nodes).result = .ok (claims, items) := by
  unfold nodesWalk
  rw [Walk.map_result_eq_ok_iff]
  simp

/-- The content type of a pass with the title that the pass registers. -/
def titledType (context : PassContext) (path : LanguagePath) (contentType : ContentType) :
    ContentType :=
  if context.isRootTable then
    { contentType with
      title := some context.displayTitle
      titlePath := some (path.pathFor "title")
      description := context.description
      descriptionPath := some (path.pathFor "description") }
  else { contentType with title := context.title, description := context.description }

@[simp] theorem registerTitle_result (contentType : ContentType) :
    (context.registerTitle path contentType).result =
      .ok (context.titledType path contentType) := by
  unfold registerTitle titledType
  split
  · simp only [Walk.bind_result_eq_ok_iff, register_result, Walk.pure_result]
    exact ⟨_, rfl, _, rfl, rfl⟩
  · rfl

theorem compilePass_result_eq_ok_iff {nodes : List FieldNode} {walk : NestedWalk} :
    (context.compilePass path nodes walk).result = .ok () ↔
      ∃ contentType items pass, context.contentType = .ok contentType ∧
        (walk context path).result = .ok items ∧
        Pass.close context path nodes (context.titledType path contentType) items = .ok pass := by
  unfold compilePass
  simp only [Walk.bind_result_eq_ok_iff, Walk.emit_result, Walk.liftM_result,
    registerTitle_result]
  constructor
  · rintro ⟨_, _, contentType, hType, _, hTitled, items, hItems, pass, hPass, _⟩
    cases hTitled
    exact ⟨contentType, items, pass, hType, hItems, hPass⟩
  · rintro ⟨contentType, items, pass, hType, hItems, hPass⟩
    exact ⟨(), trivial, contentType, hType, _, rfl, items, hItems, pass, hPass, trivial⟩

/-! ## Fields -/

/-- A collection field linked to its child table. -/
def linked (node : FieldNode) (field : CompiledField) : CompiledField :=
  { field with
    config := Entries.insertAll field.config
      (linkConfig node (node.table.getD field.uniqueIdentifier) field.uniqueIdentifier) }

/-- A linked collection succeeds if its nested nodes, if there are any, compile
in a pass of their own. -/
theorem expandCollection_result_eq_ok_iff {nested : NestedWalk} {field field' : CompiledField} :
    (context.expandCollection path node nested field).result = .ok field' ↔
      (node.fields ≠ [] →
        ∃ child, context.ofCollection node (node.table.getD field.uniqueIdentifier) = .ok child ∧
          (child.compilePass path node.fields nested).result = .ok ()) ∧
      field' = linked node field := by
  unfold expandCollection linked
  -- Without nested nodes the child table is referred to, but no pass writes it.
  by_cases hFields : node.fields = []
  · simp only [hFields, Walk.bind_result_eq_ok_iff, refer_result, List.isEmpty_nil, Bool.not_true,
      Bool.false_eq_true, if_false, Walk.pure_result]
    simp [eq_comm]
  · have hOpens : (!node.fields.isEmpty) = true := by simpa using hFields
    simp only [Walk.bind_result_eq_ok_iff, refer_result, if_pos hOpens, Walk.liftM_result,
      Walk.pure_result, hFields, ne_eq, not_false_eq_true, forall_const]
    constructor
    · rintro ⟨_, _, child, hChild, _, hPass, hField⟩
      cases hField
      exact ⟨⟨child, hChild, hPass⟩, rfl⟩
    · rintro ⟨⟨child, hChild, hPass⟩, rfl⟩
      exact ⟨(), trivial, child, hChild, (), hPass, rfl⟩

/-- The step that links a field, taken by collections only. -/
theorem link_result_eq_ok_iff {type : TypeDescriptor} {nested : NestedWalk}
    {field field' : CompiledField} :
    (if type.storage = .inline then context.expandCollection path node nested field
      else pure field).result = .ok field' ↔
      (type.storage = .inline → node.fields ≠ [] →
        ∃ child, context.ofCollection node (node.table.getD field.uniqueIdentifier) = .ok child ∧
          (child.compilePass path node.fields nested).result = .ok ()) ∧
      field' = if type.storage = .inline then linked node field else field := by
  by_cases hInline : type.storage = .inline
  · simp only [hInline, if_true, forall_const]
    exact expandCollection_result_eq_ok_iff
  · simp [hInline, eq_comm]

/-- The data structure of a field, if it is a nested form. -/
def structure? (context : PassContext) (position : LanguagePath) (type : TypeDescriptor)
    (node : FieldNode) : Option Value :=
  if type.kind = .flexForm then some (FlexForm.formValue context position node.fields) else none

/-- The step that expands a field, taken by nested forms only. -/
theorem structure?_result_eq_ok_iff {position : LanguagePath} {type : TypeDescriptor}
    {identifier : String} {value? : Option Value} :
    (if type.kind = .flexForm then
        some <$> FlexForm.expand context position identifier node.fields
      else pure none).result = .ok value? ↔
      (type.kind = .flexForm → FlexForm.WellFormed context node.fields) ∧
        value? = context.structure? position type node := by
  unfold structure?
  by_cases hForm : type.kind = .flexForm
  · simp only [hForm, if_true, Walk.map_result_eq_ok_iff, FlexForm.expand_result_eq_ok_iff,
      forall_const]
    constructor
    · rintro ⟨_, ⟨hWellFormed, rfl⟩, rfl⟩
      exact ⟨hWellFormed, rfl⟩
    · rintro ⟨hWellFormed, rfl⟩
      exact ⟨_, ⟨hWellFormed, rfl⟩, rfl⟩
  · simp [hForm, eq_comm]

/-- A field as compiled, apart from the link of a collection. -/
def unlinkedField (context : PassContext) (path : LanguagePath) (type : TypeDescriptor)
    (node : FieldNode) (unique : String) : CompiledField :=
  let position := path.push node.identifierText
  { uniqueIdentifier := unique
    identifier := node.identifierText
    fieldType := type
    label := node.label
    description := node.description
    labelPath := position.pathFor "label"
    descriptionPath := describedPath? position node type
    useExistingField := node.useExistingField
    displayCond := node.displayCond
    config := Entries.insertAll (carriedConfig node type)
      (Value.entry? "ds" (context.structure? position type node)
        ++ Value.entry? "items" (registeredItems position node type)) }

/-- The field that a node is compiled into. -/
def compiledField (context : PassContext) (path : LanguagePath) (type : TypeDescriptor)
    (node : FieldNode) (unique : String) : CompiledField :=
  if type.storage = .inline then linked node (context.unlinkedField path type node unique)
  else context.unlinkedField path type node unique

/-- The link of a collection shows in the configuration only. -/
theorem exists_compiledField_eq (context : PassContext) (path : LanguagePath)
    (type : TypeDescriptor) (node : FieldNode) (unique : String) :
    ∃ config, context.compiledField path type node unique =
      { context.unlinkedField path type node unique with config := config } := by
  unfold compiledField
  split <;> exact ⟨_, rfl⟩

@[simp] theorem compiledField_uniqueIdentifier (type : TypeDescriptor) (unique : String) :
    (context.compiledField path type node unique).uniqueIdentifier = unique := by
  unfold compiledField
  split <;> rfl

@[simp] theorem compiledField_identifier (type : TypeDescriptor) (unique : String) :
    (context.compiledField path type node unique).identifier = node.identifierText := by
  unfold compiledField
  split <;> rfl

/-- What has to hold of a field beyond its own identifiers: a nested form
follows its grammar, and the nested nodes of a collection compile. -/
def Contained (context : PassContext) (path : LanguagePath) (type : TypeDescriptor)
    (node : FieldNode) (unique : String) (nested : NestedWalk) : Prop :=
  (type.kind = .flexForm → FlexForm.WellFormed context node.fields) ∧
    (type.storage = .inline → node.fields ≠ [] →
      ∃ child, context.ofCollection node (node.table.getD unique) = .ok child ∧
        (child.compilePass (path.push node.identifierText) node.fields nested).result = .ok ())

theorem compileField_result_eq_ok_iff {type : TypeDescriptor} {nested : NestedWalk}
    {field : CompiledField} :
    (context.compileField path claims type node nested).result = .ok (claims', field) ↔
      node.HasIdentifier ∧ claims.Admits (.single .field node.identifierText) ∧
        claims' = claims.add (.single .field node.identifierText) ∧
        ∃ unique, context.fieldIdentifier node.toFieldAttributes node.identifierText = .ok unique ∧
          context.Contained path type node unique nested ∧
          field = context.compiledField path type node unique := by
  unfold compileField
  simp only [Walk.bind_result_eq_ok_iff, Walk.ite_bind_result_eq_ok_iff, Walk.liftM_result,
    registerLabels_result, registerItems_result, requireIdentifier_eq_ok_iff_hasIdentifier,
    claim_eq_ok_iff, Walk.pure_result]
  constructor
  · rintro ⟨_, ⟨hNode, rfl⟩, _, ⟨hFree, rfl⟩, unique, hUnique, _, hLabels, _, hStructure, _, hItems,
      _, hLink, hResult⟩
    cases hLabels
    cases hItems
    cases hResult
    obtain ⟨hForm, rfl⟩ := structure?_result_eq_ok_iff.mp hStructure
    obtain ⟨hNested, rfl⟩ := link_result_eq_ok_iff.mp hLink
    exact ⟨hNode, hFree, rfl, unique, hUnique, ⟨hForm, hNested⟩, rfl⟩
  · rintro ⟨hNode, hFree, rfl, unique, hUnique, ⟨hForm, hNested⟩, rfl⟩
    exact ⟨_, ⟨hNode, rfl⟩, _, ⟨hFree, rfl⟩, unique, hUnique, _, rfl, _,
      structure?_result_eq_ok_iff.mpr ⟨hForm, rfl⟩, _, rfl, _,
      link_result_eq_ok_iff.mpr ⟨hNested, rfl⟩, rfl⟩

/-! ## Tabs and palettes -/

theorem compileTab_result_eq_ok_iff {items : List PassItem} :
    (context.compileTab path claims node).result = .ok (claims', items) ↔
      node.HasIdentifier ∧ claims.Admits (.single .tab node.identifierText) ∧
        claims' = claims.add (.single .tab node.identifierText) ∧
        items = [.tab node.identifierText] := by
  unfold compileTab
  simp only [Walk.bind_result_eq_ok_iff, Walk.liftM_result, register_result, claim_eq_ok_iff,
    requireIdentifier_eq_ok_iff_hasIdentifier, Walk.pure_result]
  constructor
  · rintro ⟨_, ⟨hNode, rfl⟩, _, ⟨hFree, rfl⟩, _, _, hResult⟩
    cases hResult
    exact ⟨hNode, hFree, rfl, rfl⟩
  · rintro ⟨hNode, hFree, rfl, rfl⟩
    exact ⟨_, ⟨hNode, rfl⟩, _, ⟨hFree, rfl⟩, _, rfl, rfl⟩

/-- The definition of a palette that is not empty. -/
def paletteOf (path : LanguagePath) (node : FieldNode) (unique : String)
    (entries : List PaletteEntry) : PaletteDefinition :=
  let key := "palettes." ++ node.identifierText
  { identifier := unique
    label := node.label
    description := node.description
    labelPath := path.pathFor (key ++ ".label")
    descriptionPath := node.description.map fun _ => path.pathFor (key ++ ".description")
    items := entries.map PaletteEntry.item }

/-- A palette claims its identifier; only one that is not empty goes on with its
entries and leaves an item. -/
theorem compilePalette_result_eq_ok_iff {items : List PassItem}
    {walk : Claims → Walk (Claims × List PaletteEntry)} :
    (context.compilePalette path claims node node.identifierText walk).result =
        .ok (claims', items) ↔
      claims.Admits (.single .palette node.identifierText) ∧
        if node.fields = [] then
          claims' = claims.add (.single .palette node.identifierText) ∧ items = []
        else
          ∃ unique entries,
            context.paletteIdentifier node.toFieldAttributes node.identifierText = .ok unique ∧
            (walk (claims.add (.single .palette node.identifierText))).result =
              .ok (claims', entries) ∧
            items = [.palette (paletteOf path node unique entries)
              (entries.filterMap PaletteEntry.field?)] := by
  unfold compilePalette
  simp only [Walk.bind_result_eq_ok_iff, Walk.liftM_result, claim_eq_ok_iff]
  -- An empty palette claims its identifier all the same.
  by_cases hFields : node.fields = []
  · simp only [hFields, List.isEmpty_nil, if_true, Walk.pure_result]
    constructor
    · rintro ⟨_, ⟨hFree, rfl⟩, hResult⟩
      cases hResult
      exact ⟨hFree, rfl, rfl⟩
    · rintro ⟨hFree, rfl, rfl⟩
      exact ⟨_, ⟨hFree, rfl⟩, rfl⟩
  · have hSome : ¬node.fields.isEmpty = true := by simpa using hFields
    simp only [if_neg hSome, if_neg hFields, Walk.bind_result_eq_ok_iff, Walk.liftM_result,
      register_result, registerOptional_result, Walk.pure_result, Prod.exists]
    constructor
    · rintro ⟨_, ⟨hFree, rfl⟩, unique, hUnique, _, hLabel, _, hDescription, _, entries, hEntries,
        hResult⟩
      cases hLabel
      cases hDescription
      cases hResult
      exact ⟨hFree, unique, entries, hUnique, hEntries, rfl⟩
    · rintro ⟨hFree, unique, entries, hUnique, hEntries, rfl⟩
      exact ⟨_, ⟨hFree, rfl⟩, unique, hUnique, _, rfl, _, rfl, _, entries, hEntries, rfl⟩

/-! ## Nodes and entries -/

theorem compileNodes_nil_result_eq_ok_iff {items : List PassItem} :
    (context.compileNodes path claims []).result = .ok (claims', items) ↔
      claims' = claims ∧ items = [] := by
  simp [compileNodes, eq_comm]

theorem compileNodes_cons_result_eq_ok_iff {rest : List FieldNode} {items : List PassItem} :
    (context.compileNodes path claims (node :: rest)).result = .ok (claims', items) ↔
      ∃ between first more, (context.compileNode path claims node).result = .ok (between, first) ∧
        (context.compileNodes path between rest).result = .ok (claims', more) ∧
        items = first ++ more := by
  simp only [compileNodes, Walk.bind_result_eq_ok_iff, Walk.pure_result, Prod.exists]
  constructor
  · rintro ⟨between, first, hFirst, _, more, hMore, hResult⟩
    cases hResult
    exact ⟨between, first, more, hFirst, hMore, rfl⟩
  · rintro ⟨between, first, more, hFirst, hMore, rfl⟩
    exact ⟨between, first, hFirst, _, more, hMore, rfl⟩

theorem compileEntries_nil_result_eq_ok_iff {palette : String} {entries : List PaletteEntry} :
    (context.compileEntries path palette claims []).result = .ok (claims', entries) ↔
      claims' = claims ∧ entries = [] := by
  simp [compileEntries, eq_comm]

theorem compileEntries_cons_result_eq_ok_iff {palette : String} {rest : List FieldNode}
    {entries : List PaletteEntry} :
    (context.compileEntries path palette claims (node :: rest)).result = .ok (claims', entries) ↔
      ∃ between entry more,
        (context.compileEntry path palette claims node).result = .ok (between, entry) ∧
        (context.compileEntries path palette between rest).result = .ok (claims', more) ∧
        entries = entry :: more := by
  simp only [compileEntries, Walk.bind_result_eq_ok_iff, Walk.pure_result, Prod.exists]
  constructor
  · rintro ⟨between, entry, hEntry, _, more, hMore, hResult⟩
    cases hResult
    exact ⟨between, entry, more, hEntry, hMore, rfl⟩
  · rintro ⟨between, entry, more, hEntry, hMore, rfl⟩
    exact ⟨between, entry, hEntry, _, more, hMore, rfl⟩

/-- A compiled field is passed on in the form that the walk asks for. -/
theorem fieldStep_result_eq_ok_iff {α : Type} (wrap : CompiledField → α)
    {step : Walk (Claims × CompiledField)} {outcome : α} :
    (step >>= fun found => pure (found.1, wrap found.2)).result = .ok (claims', outcome) ↔
      ∃ field, step.result = .ok (claims', field) ∧ outcome = wrap field := by
  simp only [Walk.bind_result_eq_ok_iff, Walk.pure_result, Prod.exists]
  constructor
  · rintro ⟨_, field, hField, hResult⟩
    cases hResult
    exact ⟨field, hField, rfl⟩
  · rintro ⟨field, hField, rfl⟩
    exact ⟨_, field, hField, rfl⟩

/-- What a node of a pass does depends on the role of its type. -/
theorem compileNode_result_eq_ok_iff {items : List PassItem} :
    (context.compileNode path claims node).result = .ok (claims', items) ↔
      ∃ type, (context.Resolves node ∧ context.typeOf? node = some type) ∧
        match type.kind with
        | .linebreak => False
        | .tab => (context.compileTab path claims node).result = .ok (claims', items)
        | .palette => node.HasIdentifier ∧
            (context.compilePalette path claims node node.identifierText fun claims =>
              context.compileEntries path node.identifierText claims node.fields).result =
                .ok (claims', items)
        | _ => ∃ field,
            (context.compileField path claims type node (nodesWalk node.fields)).result =
              .ok (claims', field) ∧ items = [.field field] := by
  obtain ⟨attributes, fields, container⟩ := node
  simp only [compileNode, Walk.bind_result_eq_ok_iff, Walk.liftM_result, resolve_eq_ok_iff]
  apply exists_congr
  intro type
  apply and_congr_right
  intro _
  cases type.kind with
  | linebreak => simp
  | tab => rfl
  | palette =>
      simp only [Walk.bind_result_eq_ok_iff, Walk.liftM_result,
        requireIdentifier_eq_ok_iff_hasIdentifier]
      constructor
      · rintro ⟨_, ⟨hNode, rfl⟩, hPalette⟩
        exact ⟨hNode, hPalette⟩
      · rintro ⟨hNode, hPalette⟩
        exact ⟨_, ⟨hNode, rfl⟩, hPalette⟩
  | ordinary => exact fieldStep_result_eq_ok_iff fun field => [PassItem.field field]
  | collection => exact fieldStep_result_eq_ok_iff fun field => [PassItem.field field]
  | flexForm => exact fieldStep_result_eq_ok_iff fun field => [PassItem.field field]

/-- What a node of a palette does depends on the role of its type. -/
theorem compileEntry_result_eq_ok_iff {palette : String} {entry : PaletteEntry} :
    (context.compileEntry path palette claims node).result = .ok (claims', entry) ↔
      ∃ type, (context.Resolves node ∧ context.typeOf? node = some type) ∧
        match type.kind with
        | .palette | .tab => False
        | .linebreak => claims' = claims ∧ entry = .linebreak
        | _ => ∃ field,
            (context.compileField path claims type node (nodesWalk node.fields)).result =
              .ok (claims', field) ∧ entry = .field field := by
  obtain ⟨attributes, fields, container⟩ := node
  simp only [compileEntry, Walk.bind_result_eq_ok_iff, Walk.liftM_result, resolve_eq_ok_iff]
  apply exists_congr
  intro type
  apply and_congr_right
  intro _
  cases type.kind with
  | palette => simp
  | tab => simp
  | linebreak => simp [eq_comm]
  | ordinary => exact fieldStep_result_eq_ok_iff PaletteEntry.field
  | collection => exact fieldStep_result_eq_ok_iff PaletteEntry.field
  | flexForm => exact fieldStep_result_eq_ok_iff PaletteEntry.field

end PassContext
end ContentSchema
