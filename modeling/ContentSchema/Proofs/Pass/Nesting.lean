import ContentSchema.Proofs.Pass.Columns

/-!
# Nested passes

A collection of a pass refers to a child table, and its nested nodes, if it has
any, are compiled in a pass of their own.  A step that succeeds therefore emits,
labels apart, what its fields emit in order: the reference of a collection and
then all that the pass over its nested nodes emits.

* `PassContext.child?` is what the nested pass of a collection reads.
* `PassContext.emitted` is what one field emits.
* `PassContext.unlabelled_compileNodes` says it of the nodes of a pass.

Only steps that succeed are told here: one that fails emits a beginning of all
this.
-/

namespace ContentSchema

/-- One emission after another, for a whole list. -/
def Emission.concat (emissions : List Emission) : Emission :=
  emissions.foldr (· ++ ·) {}

namespace Emission

@[simp] theorem concat_nil : concat [] = {} := rfl

@[simp] theorem concat_cons (emission : Emission) (rest : List Emission) :
    concat (emission :: rest) = emission ++ concat rest := rfl

@[simp] theorem concat_append (first second : List Emission) :
    concat (first ++ second) = concat first ++ concat second := by
  induction first with
  | nil => simp
  | cons emission rest ih => rw [List.cons_append, concat_cons, concat_cons, ih, append_assoc]

theorem passes_concat (emissions : List Emission) :
    (concat emissions).passes = emissions.flatMap Emission.passes := by
  induction emissions with
  | nil => rfl
  | cons emission rest ih => rw [concat_cons, passes_append, ih, List.flatMap_cons]

theorem references_concat (emissions : List Emission) :
    (concat emissions).references = emissions.flatMap Emission.references := by
  induction emissions with
  | nil => rfl
  | cons emission rest ih => rw [concat_cons, references_append, ih, List.flatMap_cons]

theorem opened_concat (emissions : List Emission) :
    (concat emissions).opened = emissions.flatMap Emission.opened := by
  induction emissions with
  | nil => rfl
  | cons emission rest ih => rw [concat_cons, opened_append, ih, List.flatMap_cons]

end Emission

namespace PassContext

/-! ## Child tables -/

instance (context : PassContext) : DecidablePred context.HasPass := fun _ =>
  inferInstanceAs (Decidable (_ ∧ _))

/-- The final identifier of a field of the pass. -/
def fieldName (context : PassContext) (node : FieldNode) : String :=
  context.nameOf context.FieldApart node

/-- A node that binds an existing column goes by the name of the column. -/
theorem fieldName_of_existing {context : PassContext} {node : FieldNode}
    (hBinds : node.useExistingField = true) : context.fieldName node = node.identifierText := by
  have hPlain : ¬context.FieldApart node := by
    rintro ⟨_, _, hFree, _⟩
    rw [hBinds] at hFree
    contradiction
  rw [fieldName, nameOf, if_neg hPlain]

/-- The table that a collection of the pass refers to. -/
def childTable (context : PassContext) (node : FieldNode) : String :=
  node.table.getD (context.fieldName node)

/-- What the pass over the nested nodes of a collection reads, if there is such
a pass. -/
def child? (context : PassContext) (node : FieldNode) : Option PassContext :=
  if context.HasPass node then (context.ofCollection node (context.childTable node)).toOption
  else none

/-- What a collection is referred to with: its child table and the field that it
is compiled into. -/
def reference? (context : PassContext) (path : LanguagePath) (node : FieldNode) :
    Option (String × CompiledField) :=
  match context.typeOf? node with
  | some type =>
      if type.storage = .inline then
        some (context.childTable node,
          context.compiledField path type node (context.fieldName node))
      else none
  | none => none

/-- What a field of the pass emits, labels apart: the reference of a collection
and then what the pass over its nested nodes emits. -/
def emitted (context : PassContext) (path : LanguagePath) (node : FieldNode) : Emission :=
  { references := (context.reference? path node).toList } ++
    match context.child? node with
    | some child =>
        (child.compilePass (path.push node.identifierText) node.fields
          (nodesWalk node.fields)).emission.unlabelled
    | none => {}

variable {context : PassContext} {path : LanguagePath} {claims claims' : Claims}
  {node : FieldNode}

theorem child?_of_ofCollection {child : PassContext} (hPass : context.HasPass node)
    (hChild : context.ofCollection node (context.childTable node) = .ok child) :
    context.child? node = some child := by
  rw [child?, if_pos hPass, hChild]
  rfl

theorem child?_eq_some_iff {child : PassContext} :
    context.child? node = some child ↔
      context.HasPass node ∧ context.ofCollection node (context.childTable node) = .ok child := by
  constructor
  · intro hChild
    unfold child? at hChild
    split at hChild
    case isFalse => contradiction
    case isTrue hPass =>
      cases hMade : context.ofCollection node (context.childTable node) with
      | error e =>
          rw [hMade] at hChild
          contradiction
      | ok made =>
          rw [hMade] at hChild
          exact ⟨hPass, congrArg Except.ok (Option.some.inj hChild)⟩
  · rintro ⟨hPass, hChild⟩
    exact child?_of_ofCollection hPass hChild

/-- A node without nested nodes, or that is no collection, leads nowhere. -/
theorem child?_of_not_hasPass (hPass : ¬context.HasPass node) : context.child? node = none := by
  rw [child?, if_neg hPass]

/-! ## What the steps emit -/

theorem unlabelled_compilePass {nodes : List FieldNode} {walk : NestedWalk}
    (hPass : (context.compilePass path nodes walk).result = .ok ()) :
    ∃ contentType items pass, context.contentType = .ok contentType ∧
      (walk context path).result = .ok items ∧
      Pass.close context path nodes (context.titledType path contentType) items = .ok pass ∧
      (context.compilePass path nodes walk).emission.unlabelled =
        { opened := [context.table] } ++ (walk context path).emission.unlabelled ++
          { passes := [pass] } := by
  obtain ⟨contentType, items, pass, hType, hItems, hClose⟩ :=
    compilePass_result_eq_ok_iff.mp hPass
  refine ⟨contentType, items, pass, hType, hItems, hClose, ?_⟩
  unfold compilePass
  rw [Walk.unlabelled_bind (Walk.emit_result _),
    Walk.unlabelled_bind_of_labelsOnly ((Walk.liftM_result _).trans hType)
      (Walk.labelsOnly_liftM _),
    Walk.unlabelled_bind_of_labelsOnly (registerTitle_result contentType)
      (labelsOnly_registerTitle contentType),
    Walk.unlabelled_bind hItems,
    Walk.unlabelled_bind_of_labelsOnly ((Walk.liftM_result _).trans hClose)
      (Walk.labelsOnly_liftM _), ← Emission.append_assoc]
  rfl

/-- A collection is referred to before its nested nodes are visited. -/
theorem unlabelled_expandCollection {nested : NestedWalk} {field : CompiledField}
    (hNested : node.fields ≠ [] →
      ∃ child, context.ofCollection node (node.table.getD field.uniqueIdentifier) = .ok child ∧
        (child.compilePass path node.fields nested).result = .ok ()) :
    (context.expandCollection path node nested field).emission.unlabelled =
      { references := [(node.table.getD field.uniqueIdentifier, linked node field)] } ++
        if node.fields = [] then {}
        else match context.ofCollection node (node.table.getD field.uniqueIdentifier) with
          | .ok child => (child.compilePass path node.fields nested).emission.unlabelled
          | .error _ => {} := by
  unfold expandCollection
  rw [Walk.unlabelled_bind (refer_result _ _)]
  by_cases hFields : node.fields = []
  · simp only [hFields, List.isEmpty_nil, Bool.not_true, Bool.false_eq_true, if_false, if_true]
    rfl
  · obtain ⟨child, hChild, hPass⟩ := hNested hFields
    have hOpens : (!node.fields.isEmpty) = true := by simpa using hFields
    rw [if_pos hOpens, if_neg hFields, hChild,
      Walk.unlabelled_bind_of_labelsOnly (Walk.liftM_result _) (Walk.labelsOnly_liftM _),
      Walk.unlabelled_bind hPass]
    exact congrArg _ (Emission.append_nil _)

/-- A field emits, labels apart, what its link emits. -/
theorem unlabelled_compileField_eq_link {type : TypeDescriptor} {nested : NestedWalk}
    {field : CompiledField} {unique : String}
    (hUnique : context.fieldIdentifier node.toFieldAttributes node.identifierText = .ok unique)
    (hField : (context.compileField path claims type node nested).result =
      .ok (claims', field)) :
    (context.compileField path claims type node nested).emission.unlabelled =
      if type.storage = .inline then
        (context.expandCollection (path.push node.identifierText) node nested
          (context.unlinkedField path type node unique)).emission.unlabelled
      else {} := by
  obtain ⟨hNode, hFree, hClaims, other, hOther, ⟨hForm, hNested⟩, _⟩ :=
    compileField_result_eq_ok_iff.mp hField
  obtain rfl : other = unique := Except.ok.inj (hOther.symm.trans hUnique)
  have hIdentifier : context.requireIdentifier node type.name = .ok node.identifierText :=
    requireIdentifier_eq_ok_iff_hasIdentifier.mpr ⟨hNode, rfl⟩
  have hClaim : context.claim claims .field node.identifierText = .ok claims' :=
    claim_eq_ok_iff.mpr ⟨hFree, hClaims⟩
  let position := path.push node.identifierText
  have hStructure : (if type.kind = .flexForm then
      some <$> FlexForm.expand context position node.identifierText node.fields
    else pure none).result = .ok (context.structure? position type node) :=
    structure?_result_eq_ok_iff.mpr ⟨hForm, rfl⟩
  have hLink : (if type.storage = .inline then
      context.expandCollection position node nested (context.unlinkedField path type node other)
    else pure (context.unlinkedField path type node other)).result = .ok _ :=
    link_result_eq_ok_iff.mpr ⟨hNested, rfl⟩
  -- Everything before the link is left out step by step.
  unfold compileField
  rw [Walk.unlabelled_bind_of_labelsOnly ((Walk.liftM_result _).trans hIdentifier)
      (Walk.labelsOnly_liftM _),
    Walk.unlabelled_bind_of_labelsOnly ((Walk.liftM_result _).trans hClaim)
      (Walk.labelsOnly_liftM _),
    Walk.unlabelled_bind_of_labelsOnly ((Walk.liftM_result _).trans hUnique)
      (Walk.labelsOnly_liftM _),
    Walk.unlabelled_bind_of_labelsOnly (registerLabels_result _ _ _ _ _)
      (labelsOnly_registerLabels _ _ _)]
  simp only
  rw [Walk.ite_bind, Walk.unlabelled_bind_of_labelsOnly hStructure (by simp),
    Walk.unlabelled_bind_of_labelsOnly (registerItems_result _ _ _ _)
      (labelsOnly_registerItems _ _), Walk.ite_bind]
  refine (Walk.unlabelled_bind hLink _).trans ?_
  rw [Walk.pure_emission, Emission.unlabelled_empty, Emission.append_nil]
  split <;> rfl

/-- What a compiled field emits is told by its node. -/
theorem unlabelled_compileField {type : TypeDescriptor} {field : CompiledField}
    (hNamed : context.Named) (hType : context.typeOf? node = some type)
    (hField : (context.compileField path claims type node (nodesWalk node.fields)).result =
      .ok (claims', field)) :
    (context.compileField path claims type node (nodesWalk node.fields)).emission.unlabelled =
      context.emitted path node := by
  have hUnique : context.fieldIdentifier node.toFieldAttributes node.identifierText =
      .ok (context.fieldName node) := fieldIdentifier_eq hNamed node
  obtain ⟨_, _, _, other, hOther, ⟨_, hNested⟩, _⟩ := compileField_result_eq_ok_iff.mp hField
  obtain rfl : other = context.fieldName node := Except.ok.inj (hOther.symm.trans hUnique)
  rw [unlabelled_compileField_eq_link hUnique hField]
  have hStorage : context.storageOf? node = some type.storage := storageOf?_of_typeOf? hType
  by_cases hInline : type.storage = .inline
  · have hReference : context.reference? path node = some (context.childTable node,
        linked node (context.unlinkedField path type node (context.fieldName node))) := by
      simp [reference?, hType, hInline, compiledField]
    rw [if_pos hInline, unlabelled_expandCollection (hNested hInline), emitted, hReference]
    congr 1
    by_cases hFields : node.fields = []
    · have hNone : context.child? node = none :=
        child?_of_not_hasPass fun hPass => hPass.2 hFields
      rw [if_pos hFields, hNone]
    · obtain ⟨child, hChild, _⟩ := hNested hInline hFields
      have hSome : context.child? node = some child :=
        child?_of_ofCollection ⟨hStorage.trans (congrArg some hInline), hFields⟩ hChild
      have hTable : node.table.getD (context.unlinkedField path type node
          (context.fieldName node)).uniqueIdentifier = context.childTable node := rfl
      rw [if_neg hFields, hSome, hTable, child?_eq_some_iff.mp hSome |>.2]
  · have hNone : context.child? node = none := by
      apply child?_of_not_hasPass
      rintro ⟨hOther, _⟩
      exact hInline (Option.some.inj (hStorage.symm.trans hOther))
    have hReference : context.reference? path node = none := by
      simp [reference?, hType, hInline]
    rw [if_neg hInline, emitted, hReference, hNone]
    rfl

/-- A field is passed on in the form that the walk asks for; that emits nothing. -/
theorem unlabelled_fieldStep {α : Type} (wrap : CompiledField → α) {type : TypeDescriptor}
    {field : CompiledField} (hNamed : context.Named) (hType : context.typeOf? node = some type)
    (hField : (context.compileField path claims type node (nodesWalk node.fields)).result =
      .ok (claims', field)) :
    (context.compileField path claims type node (nodesWalk node.fields) >>= fun found =>
      pure (found.1, wrap found.2)).emission.unlabelled = context.emitted path node := by
  rw [Walk.unlabelled_bind hField, unlabelled_compileField hNamed hType hField]
  exact Emission.append_nil _

theorem paletteFields_singleton {kind : FieldKind} (hKind : context.kindOf? node = some kind) :
    context.paletteFields [node] = if kind = .linebreak then [] else [node] := by
  by_cases hLinebreak : kind = .linebreak
  · simp [paletteFields, hKind, hLinebreak]
  · simp [paletteFields, hKind, hLinebreak]

theorem paletteFields_cons (rest : List FieldNode) :
    context.paletteFields (node :: rest) =
      context.paletteFields [node] ++ context.paletteFields rest := by
  unfold paletteFields
  rw [← List.singleton_append, List.filter_append]

theorem unlabelled_compileEntry {palette : String} {entry : PaletteEntry}
    (hNamed : context.Named)
    (hEntry : (context.compileEntry path palette claims node).result = .ok (claims', entry)) :
    (context.compileEntry path palette claims node).emission.unlabelled =
      .concat ((context.paletteFields [node]).map (context.emitted path)) := by
  obtain ⟨type, hType, hRole⟩ := compileEntry_result_eq_ok_iff.mp hEntry
  have hKind := kindOf?_of_typeOf? hType.2
  have hResolve : context.resolve node = .ok type := resolve_eq_ok_iff.mpr hType
  have hFieldRole (hLinebreak : type.kind ≠ .linebreak) {field : CompiledField}
      (hField : (context.compileField path claims type node (nodesWalk node.fields)).result =
        .ok (claims', field)) :
      (context.compileField path claims type node (nodesWalk node.fields) >>= fun found =>
          pure (found.1, PaletteEntry.field found.2)).emission.unlabelled =
        .concat ((context.paletteFields [node]).map (context.emitted path)) := by
    rw [unlabelled_fieldStep PaletteEntry.field hNamed hType.2 hField,
      paletteFields_singleton hKind, if_neg hLinebreak]
    exact (Emission.append_nil _).symm
  obtain ⟨attributes, fields, container⟩ := node
  unfold compileEntry
  refine (Walk.unlabelled_bind_of_labelsOnly ((Walk.liftM_result _).trans hResolve)
    (Walk.labelsOnly_liftM _) _).trans ?_
  cases hCase : type.kind <;> rw [hCase] at hRole hKind hFieldRole
  case palette => contradiction
  case tab => contradiction
  case linebreak =>
    rw [paletteFields_singleton hKind]
    rfl
  all_goals
    obtain ⟨field, hField, _⟩ := hRole
    exact hFieldRole (by simp) hField

theorem unlabelled_compileEntries {palette : String} {nodes : List FieldNode}
    {entries : List PaletteEntry} (hNamed : context.Named)
    (hEntries : (context.compileEntries path palette claims nodes).result =
      .ok (claims', entries)) :
    (context.compileEntries path palette claims nodes).emission.unlabelled =
      .concat ((context.paletteFields nodes).map (context.emitted path)) := by
  induction nodes generalizing claims claims' entries with
  | nil => rfl
  | cons node rest ih =>
      obtain ⟨_, entry, more, hEntry, hMore, _⟩ :=
        compileEntries_cons_result_eq_ok_iff.mp hEntries
      unfold compileEntries
      rw [Walk.unlabelled_bind hEntry, Walk.unlabelled_bind hMore,
        unlabelled_compileEntry hNamed hEntry, ih hMore, paletteFields_cons rest, List.map_append,
        Emission.concat_append]
      exact congrArg _ (Emission.append_nil _)

theorem unlabelled_compilePalette {items : List PassItem} (hNamed : context.Named)
    (hPalette : (context.compilePalette path claims node node.identifierText fun claims =>
      context.compileEntries path node.identifierText claims node.fields).result =
        .ok (claims', items)) :
    (context.compilePalette path claims node node.identifierText fun claims =>
      context.compileEntries path node.identifierText claims node.fields).emission.unlabelled =
        .concat ((context.paletteFields node.fields).map (context.emitted path)) := by
  obtain ⟨hFree, hRest⟩ := compilePalette_result_eq_ok_iff.mp hPalette
  have hClaim : context.claim claims .palette node.identifierText =
      .ok (claims.add (.single .palette node.identifierText)) := claim_eq_ok_iff.mpr ⟨hFree, rfl⟩
  unfold compilePalette
  refine (Walk.unlabelled_bind_of_labelsOnly ((Walk.liftM_result _).trans hClaim)
    (Walk.labelsOnly_liftM _) _).trans ?_
  split at hRest
  case isTrue hFields =>
    rw [hFields]
    rfl
  case isFalse hFields =>
    obtain ⟨unique, entries, hUnique, hEntries, _⟩ := hRest
    have hSome : ¬node.fields.isEmpty = true := by simpa using hFields
    rw [if_neg hSome, Walk.unlabelled_bind_of_labelsOnly ((Walk.liftM_result _).trans hUnique)
        (Walk.labelsOnly_liftM _),
      Walk.unlabelled_bind_of_labelsOnly (register_result _ _ _ _) (labelsOnly_register _ _),
      Walk.unlabelled_bind_of_labelsOnly (registerOptional_result _ _ _ _)
        (labelsOnly_registerOptional _ _),
      Walk.unlabelled_bind hEntries, unlabelled_compileEntries hNamed hEntries]
    exact Emission.append_nil _

/-- A node emits what the fields that it contributes emit. -/
theorem unlabelled_compileNode {items : List PassItem} (hNamed : context.Named)
    (hNode : (context.compileNode path claims node).result = .ok (claims', items)) :
    (context.compileNode path claims node).emission.unlabelled =
      .concat ((context.ownFields node).map (context.emitted path)) := by
  obtain ⟨type, hType, hRole⟩ := compileNode_result_eq_ok_iff.mp hNode
  have hKind := kindOf?_of_typeOf? hType.2
  have hResolve : context.resolve node = .ok type := resolve_eq_ok_iff.mpr hType
  have hRequired (hIdentifier : node.HasIdentifier) :
      context.requireIdentifier node "Palette" = .ok node.identifierText :=
    requireIdentifier_eq_ok_iff_hasIdentifier.mpr ⟨hIdentifier, rfl⟩
  have hPaletteRole (hPalette : (context.compilePalette path claims node node.identifierText
      fun claims => context.compileEntries path node.identifierText claims node.fields).result =
        .ok (claims', items)) := unlabelled_compilePalette hNamed hPalette
  have hFieldRole (hOwn : context.ownFields node = [node]) {field : CompiledField}
      (hField : (context.compileField path claims type node (nodesWalk node.fields)).result =
        .ok (claims', field)) :
      (context.compileField path claims type node (nodesWalk node.fields) >>= fun found =>
          pure (found.1, [PassItem.field found.2])).emission.unlabelled =
        .concat ((context.ownFields node).map (context.emitted path)) := by
    rw [unlabelled_fieldStep (fun field => [PassItem.field field]) hNamed hType.2 hField, hOwn]
    exact (Emission.append_nil _).symm
  have hOwn : context.ownFields node =
      if type.kind = .palette then context.paletteFields node.fields
      else if type.kind = .tab then [] else [node] := by
    unfold ownFields
    rw [hKind]
    cases type.kind <;> rfl
  obtain ⟨attributes, fields, container⟩ := node
  unfold compileNode
  refine (Walk.unlabelled_bind_of_labelsOnly ((Walk.liftM_result _).trans hResolve)
    (Walk.labelsOnly_liftM _) _).trans ?_
  cases hCase : type.kind <;> rw [hCase] at hRole hOwn
  case linebreak => contradiction
  case tab =>
    rw [hOwn]
    exact labelsOnly_compileTab _ _
  case palette =>
    obtain ⟨hIdentifier, hPalette⟩ := hRole
    rw [hOwn, if_pos rfl, ← hPaletteRole hPalette]
    exact Walk.unlabelled_bind_of_labelsOnly
      ((Walk.liftM_result _).trans (hRequired hIdentifier)) (Walk.labelsOnly_liftM _) _
  all_goals
    obtain ⟨field, hField, _⟩ := hRole
    exact hFieldRole hOwn hField

theorem unlabelled_compileNodes {nodes : List FieldNode} {items : List PassItem}
    (hNamed : context.Named)
    (hNodes : (context.compileNodes path claims nodes).result = .ok (claims', items)) :
    (context.compileNodes path claims nodes).emission.unlabelled =
      .concat ((context.fieldNodes nodes).map (context.emitted path)) := by
  induction nodes generalizing claims claims' items with
  | nil => rfl
  | cons node rest ih =>
      obtain ⟨_, first, more, hFirst, hMore, _⟩ := compileNodes_cons_result_eq_ok_iff.mp hNodes
      have hSplit : context.fieldNodes (node :: rest) =
          context.ownFields node ++ context.fieldNodes rest := List.flatMap_cons
      unfold compileNodes
      rw [Walk.unlabelled_bind hFirst, Walk.unlabelled_bind hMore,
        unlabelled_compileNode hNamed hFirst, ih hMore, hSplit, List.map_append,
        Emission.concat_append]
      exact congrArg _ (Emission.append_nil _)

end PassContext

end ContentSchema
