import ContentSchema.Proofs.FlexForm.Keys
import ContentSchema.Proofs.Pass.Sites

/-!
# Keys of a pass

A walk over a site that succeeds registers the keys of its title and then those of
its nodes in order.  A collection registers its own keys before those of its
nested pass, and a palette its own before those of its fields.

* `PassContext.nodeKeys` lists the keys of one node.
* `Site.Succeeds.registers_walk` says that the walk over a site registers them.
* `Site.Succeeds.mem_keys_iff` tells the keys of a walk by its passes, whatever
  the order.

All keys of a walk belong to one document; a nested pass does NOT have keys of a
document of its own.
-/

namespace ContentSchema

namespace PassContext

/-! ## The keys of nodes -/

/-- The keys of a field of a pass, those of its nested pass apart.  There are
none for a node without a type. -/
def fieldKeys (context : PassContext) (path : LanguagePath) (node : FieldNode) :
    List LanguageKey :=
  let position := path.push node.identifierText
  match context.typeOf? node with
  | some type =>
      labelKeys position node type ++
        ((if type.kind = .flexForm then FlexForm.formKeys context position node.fields else []) ++
          itemKeys position node type)
  | none => []

/-- The keys of the nested pass of a collection, if there is such a pass. -/
def nestedKeys (context : PassContext) (path : LanguagePath) (node : FieldNode) :
    List LanguageKey :=
  match context.child? node with
  | some child =>
      (child.compilePass (path.push node.identifierText) node.fields
        (nodesWalk node.fields)).emission.keys.map Prod.snd
  | none => []

/-- The keys of a palette, those of its fields apart. -/
def paletteKeys (path : LanguagePath) (node : FieldNode) : List LanguageKey :=
  let key := "palettes." ++ node.identifierText
  path.entry (key ++ ".label") (node.label.getD node.identifierText) ::
    path.entry? (key ++ ".description") node.description

/-- The keys of the fields of a pass, each followed by those of its nested pass. -/
def treeKeys (context : PassContext) (path : LanguagePath) (nodes : List FieldNode) :
    List LanguageKey :=
  nodes.flatMap fun node => context.fieldKeys path node ++ context.nestedKeys path node

/-- The keys of a tab, and those of a palette apart from its fields.  A palette
without fields has none. -/
def shapeKeys (context : PassContext) (path : LanguagePath) (node : FieldNode) :
    List LanguageKey :=
  match context.kindOf? node with
  | some .palette => if node.fields.isEmpty then [] else paletteKeys path node
  | some .tab =>
      [path.entry ("tabs." ++ node.identifierText) (node.label.getD node.identifierText)]
  | _ => []

/-- The keys of a node of a pass. -/
def nodeKeys (context : PassContext) (path : LanguagePath) (node : FieldNode) :
    List LanguageKey :=
  context.shapeKeys path node ++ context.treeKeys path (context.ownFields node)

variable {context : PassContext} {path : LanguagePath} {claims claims' : Claims}
  {node : FieldNode}

/-! ## The file of the keys -/

theorem standsIn_fieldKeys : ∀ key ∈ context.fieldKeys path node, key.StandsIn path.base := by
  unfold fieldKeys
  split
  case h_1 type _ =>
    refine List.forall_mem_append.mpr
      ⟨standsIn_labelKeys, List.forall_mem_append.mpr ⟨?_, standsIn_itemKeys⟩⟩
    split
    · exact FlexForm.standsIn_formKeys
    · simp
  case h_2 => simp

theorem standsIn_shapeKeys : ∀ key ∈ context.shapeKeys path node, key.StandsIn path.base := by
  unfold shapeKeys
  split
  · split
    · simp
    · exact List.forall_mem_cons.mpr ⟨path.standsIn_entry _ _, LanguagePath.standsIn_entry?⟩
  · exact List.forall_mem_cons.mpr ⟨path.standsIn_entry _ _, by simp⟩
  · simp

/-! ## What the steps register -/

/-- The nested passes of some fields register their keys for the document of the
pass. -/
def NestedRegister (context : PassContext) (path : LanguagePath) (nodes : List FieldNode) :
    Prop :=
  ∀ node ∈ nodes, ∀ child, context.child? node = some child →
    (child.compilePass (path.push node.identifierText) node.fields
      (nodesWalk node.fields)).Registers context.document.name (context.nestedKeys path node)

theorem nestedRegister_append_iff {first second : List FieldNode} :
    context.NestedRegister path (first ++ second) ↔
      context.NestedRegister path first ∧ context.NestedRegister path second :=
  List.forall_mem_append

theorem treeKeys_append (first second : List FieldNode) :
    context.treeKeys path (first ++ second) =
      context.treeKeys path first ++ context.treeKeys path second :=
  List.flatMap_append

/-- A collection registers what its nested pass registers. -/
theorem registers_expandCollection {field linkedField : CompiledField}
    (hStorage : context.storageOf? node = some .inline)
    (hUnique : field.uniqueIdentifier = context.fieldName node)
    (hField : (context.expandCollection (path.push node.identifierText) node
      (nodesWalk node.fields) field).result = .ok linkedField)
    (hNested : context.NestedRegister path [node]) :
    (context.expandCollection (path.push node.identifierText) node (nodesWalk node.fields)
      field).Registers context.document.name (context.nestedKeys path node) := by
  obtain ⟨hInside, _⟩ := expandCollection_result_eq_ok_iff.mp hField
  unfold expandCollection
  refine .skip (refer_result _ _) rfl ?_
  by_cases hFields : node.fields = []
  · have hNone : context.child? node = none :=
      child?_of_not_hasPass fun hPass => hPass.2 hFields
    rw [if_neg (by simp [hFields]), nestedKeys, hNone]
    exact Walk.registers_pure _
  · obtain ⟨child, hChild, hPass⟩ := hInside hFields
    have hMade : context.child? node = some child := by
      refine child?_of_ofCollection ⟨hStorage, hFields⟩ ?_
      rw [childTable, ← hUnique]
      exact hChild
    rw [if_pos (by simpa using hFields)]
    refine .skip ((Walk.liftM_result _).trans hChild) (Walk.registers_liftM _) ?_
    exact (hNested node (List.mem_singleton.mpr rfl) child hMade).last hPass (Walk.registers_pure _)

/-- The data structure of a field registers the keys of a nested form, if it is
one. -/
theorem registers_structure {type : TypeDescriptor} {position : LanguagePath}
    {identifier : String} {value? : Option Value}
    (hStructure : (if type.kind = .flexForm then
        some <$> FlexForm.expand context position identifier node.fields
      else pure none).result = .ok value?) :
    (if type.kind = .flexForm then
        some <$> FlexForm.expand context position identifier node.fields
      else pure none).Registers context.document.name
      (if type.kind = .flexForm then FlexForm.formKeys context position node.fields else []) := by
  by_cases hKind : type.kind = .flexForm
  · rw [if_pos hKind] at hStructure ⊢
    obtain ⟨_, hExpands, _⟩ := Walk.map_result_eq_ok_iff.mp hStructure
    rw [if_pos hKind]
    exact (FlexForm.registers_expand hExpands).map hExpands
  · rw [if_neg hKind, if_neg hKind]
    exact Walk.registers_pure _

/-- The link of a field registers what the nested pass registers, if there is one. -/
theorem registers_link {type : TypeDescriptor} {field linkedField : CompiledField}
    (hType : context.typeOf? node = some type)
    (hUnique : field.uniqueIdentifier = context.fieldName node)
    (hLink : (if type.storage = .inline then
        context.expandCollection (path.push node.identifierText) node (nodesWalk node.fields) field
      else pure field).result = .ok linkedField)
    (hNested : context.NestedRegister path [node]) :
    (if type.storage = .inline then
        context.expandCollection (path.push node.identifierText) node (nodesWalk node.fields) field
      else pure field).Registers context.document.name (context.nestedKeys path node) := by
  have hStorage := storageOf?_of_typeOf? hType
  by_cases hInline : type.storage = .inline
  · rw [if_pos hInline] at hLink ⊢
    exact registers_expandCollection (hStorage.trans (congrArg some hInline)) hUnique hLink hNested
  · have hNone : context.child? node = none := by
      apply child?_of_not_hasPass
      rintro ⟨hSame, _⟩
      exact hInline (Option.some.inj (hStorage.symm.trans hSame))
    rw [if_neg hInline, nestedKeys, hNone]
    exact Walk.registers_pure _

/-- A field registers its own keys and then those of its nested pass. -/
theorem registers_compileField {type : TypeDescriptor} {field : CompiledField}
    (hNamed : context.Named) (hType : context.typeOf? node = some type)
    (hField : (context.compileField path claims type node (nodesWalk node.fields)).result =
      .ok (claims', field))
    (hNested : context.NestedRegister path [node]) :
    (context.compileField path claims type node (nodesWalk node.fields)).Registers
      context.document.name (context.treeKeys path [node]) := by
  have hUnique : context.fieldIdentifier node.toFieldAttributes node.identifierText =
      .ok (context.fieldName node) := fieldIdentifier_eq hNamed node
  obtain ⟨hNode, hFree, hClaims, other, hOther, ⟨hForm, hInside⟩, _⟩ :=
    compileField_result_eq_ok_iff.mp hField
  obtain rfl : other = context.fieldName node := Except.ok.inj (hOther.symm.trans hUnique)
  let position := path.push node.identifierText
  let unlinked := context.unlinkedField path type node (context.fieldName node)
  have hStructure : (if type.kind = .flexForm then
      some <$> FlexForm.expand context position node.identifierText node.fields
    else pure none).result = .ok (context.structure? position type node) :=
    structure?_result_eq_ok_iff.mpr ⟨hForm, rfl⟩
  have hLink : (if type.storage = .inline then
      context.expandCollection position node (nodesWalk node.fields) unlinked
    else pure unlinked).result = .ok _ := link_result_eq_ok_iff.mpr ⟨hInside, rfl⟩
  unfold compileField treeKeys
  rw [List.flatMap_singleton, fieldKeys, hType, List.append_assoc, List.append_assoc]
  refine .skip ((Walk.liftM_result _).trans
    (requireIdentifier_eq_ok_iff_hasIdentifier.mpr ⟨hNode, rfl⟩)) (Walk.registers_liftM _) ?_
  refine .skip ((Walk.liftM_result _).trans (claim_eq_ok_iff.mpr ⟨hFree, hClaims⟩))
    (Walk.registers_liftM _) ?_
  refine .skip ((Walk.liftM_result _).trans hUnique) (Walk.registers_liftM _) ?_
  refine (registers_registerLabels node type).bind (registerLabels_result _ _ _ _ _) ?_
  simp only
  rw [Walk.ite_bind]
  refine (registers_structure hStructure).bind hStructure ?_
  refine (registers_registerItems node type).bind (registerItems_result _ _ _ _) ?_
  rw [Walk.ite_bind]
  exact (registers_link hType rfl hLink hNested).last hLink (Walk.registers_pure _)

/-- A field is passed on in the form that the walk asks for; that registers
nothing. -/
theorem registers_fieldStep {α : Type} (wrap : CompiledField → α) {type : TypeDescriptor}
    {field : CompiledField} (hNamed : context.Named) (hType : context.typeOf? node = some type)
    (hField : (context.compileField path claims type node (nodesWalk node.fields)).result =
      .ok (claims', field))
    (hNested : context.NestedRegister path [node]) :
    (context.compileField path claims type node (nodesWalk node.fields) >>= fun found =>
      pure (found.1, wrap found.2)).Registers context.document.name
        (context.treeKeys path [node]) :=
  (registers_compileField hNamed hType hField hNested).last hField (Walk.registers_pure _)

theorem registers_compileEntry {palette : String} {entry : PaletteEntry}
    (hNamed : context.Named)
    (hEntry : (context.compileEntry path palette claims node).result = .ok (claims', entry))
    (hNested : context.NestedRegister path (context.paletteFields [node])) :
    (context.compileEntry path palette claims node).Registers context.document.name
      (context.treeKeys path (context.paletteFields [node])) := by
  obtain ⟨type, hType, hRole⟩ := compileEntry_result_eq_ok_iff.mp hEntry
  have hKind := kindOf?_of_typeOf? hType.2
  have hResolve : context.resolve node = .ok type := resolve_eq_ok_iff.mpr hType
  have hFieldRole (hOnly : context.NestedRegister path [node]) {field : CompiledField}
      (hField : (context.compileField path claims type node (nodesWalk node.fields)).result =
        .ok (claims', field)) :=
    registers_fieldStep PaletteEntry.field hNamed hType.2 hField hOnly
  rw [paletteFields_singleton hKind] at hNested ⊢
  obtain ⟨attributes, fields, container⟩ := node
  unfold compileEntry
  refine .skip ((Walk.liftM_result _).trans hResolve) (Walk.registers_liftM _) ?_
  cases hCase : type.kind <;> rw [hCase] at hRole hNested
  case palette => contradiction
  case tab => contradiction
  case linebreak => exact Walk.registers_pure _
  all_goals
    obtain ⟨field, hField, _⟩ := hRole
    exact hFieldRole hNested hField

theorem registers_compileEntries {palette : String} {nodes : List FieldNode}
    {entries : List PaletteEntry} (hNamed : context.Named)
    (hEntries : (context.compileEntries path palette claims nodes).result =
      .ok (claims', entries))
    (hNested : context.NestedRegister path (context.paletteFields nodes)) :
    (context.compileEntries path palette claims nodes).Registers context.document.name
      (context.treeKeys path (context.paletteFields nodes)) := by
  induction nodes generalizing claims claims' entries with
  | nil => rfl
  | cons node rest ih =>
      obtain ⟨_, entry, more, hEntry, hMore, _⟩ :=
        compileEntries_cons_result_eq_ok_iff.mp hEntries
      rw [paletteFields_cons rest, nestedRegister_append_iff] at hNested
      unfold compileEntries
      rw [paletteFields_cons rest, treeKeys_append]
      refine (registers_compileEntry hNamed hEntry hNested.1).bind hEntry ?_
      exact (ih hMore hNested.2).last hMore (Walk.registers_pure _)

theorem registers_compilePalette {items : List PassItem} (hNamed : context.Named)
    (hPalette : (context.compilePalette path claims node node.identifierText fun claims =>
      context.compileEntries path node.identifierText claims node.fields).result =
        .ok (claims', items))
    (hNested : context.NestedRegister path (context.paletteFields node.fields)) :
    (context.compilePalette path claims node node.identifierText fun claims =>
      context.compileEntries path node.identifierText claims node.fields).Registers
        context.document.name
        ((if node.fields.isEmpty then [] else paletteKeys path node) ++
          context.treeKeys path (context.paletteFields node.fields)) := by
  obtain ⟨hFree, hRest⟩ := compilePalette_result_eq_ok_iff.mp hPalette
  unfold compilePalette
  refine .skip ((Walk.liftM_result _).trans (claim_eq_ok_iff.mpr ⟨hFree, rfl⟩))
    (Walk.registers_liftM _) ?_
  by_cases hFields : node.fields = []
  · rw [hFields]
    exact Walk.registers_pure _
  · have hSome : ¬node.fields.isEmpty = true := by simpa using hFields
    rw [if_neg hFields] at hRest
    obtain ⟨unique, entries, hUnique, hEntries, _⟩ := hRest
    rw [if_neg hSome, if_neg hSome, paletteKeys, List.cons_append, ← List.singleton_append]
    refine .skip ((Walk.liftM_result _).trans hUnique) (Walk.registers_liftM _) ?_
    refine (registers_register _ _).bind (register_result _ _ _ _) ?_
    refine (registers_registerOptional _ _).bind (registerOptional_result _ _ _ _) ?_
    exact (registers_compileEntries hNamed hEntries hNested).last hEntries
      (Walk.registers_pure _)

theorem registers_compileTab {items : List PassItem}
    (hTab : (context.compileTab path claims node).result = .ok (claims', items)) :
    (context.compileTab path claims node).Registers context.document.name
      [path.entry ("tabs." ++ node.identifierText) (node.label.getD node.identifierText)] := by
  obtain ⟨hIdentifier, hFree, hClaims, _⟩ := compileTab_result_eq_ok_iff.mp hTab
  unfold compileTab
  refine .skip ((Walk.liftM_result _).trans
    (requireIdentifier_eq_ok_iff_hasIdentifier.mpr ⟨hIdentifier, rfl⟩))
    (Walk.registers_liftM _) ?_
  refine .skip ((Walk.liftM_result _).trans (claim_eq_ok_iff.mpr ⟨hFree, hClaims⟩))
    (Walk.registers_liftM _) ?_
  exact (registers_register _ _).last (register_result _ _ _ _) (Walk.registers_pure _)

/-- A node registers its keys. -/
theorem registers_compileNode {items : List PassItem} (hNamed : context.Named)
    (hNode : (context.compileNode path claims node).result = .ok (claims', items))
    (hNested : context.NestedRegister path (context.ownFields node)) :
    (context.compileNode path claims node).Registers context.document.name
      (context.nodeKeys path node) := by
  obtain ⟨type, hType, hRole⟩ := compileNode_result_eq_ok_iff.mp hNode
  have hKind := kindOf?_of_typeOf? hType.2
  have hResolve : context.resolve node = .ok type := resolve_eq_ok_iff.mpr hType
  have hFieldRole (hOnly : context.NestedRegister path [node]) {field : CompiledField}
      (hField : (context.compileField path claims type node (nodesWalk node.fields)).result =
        .ok (claims', field)) :=
    registers_fieldStep (fun field => [PassItem.field field]) hNamed hType.2 hField hOnly
  have hRequired (hIdentifier : node.HasIdentifier) :
      context.requireIdentifier node "Palette" = .ok node.identifierText :=
    requireIdentifier_eq_ok_iff_hasIdentifier.mpr ⟨hIdentifier, rfl⟩
  have hTabRole := @registers_compileTab context path claims claims' node items
  have hPaletteRole := @registers_compilePalette context path claims claims' node items hNamed
  unfold nodeKeys shapeKeys
  unfold ownFields at hNested ⊢
  rw [hKind] at hNested ⊢
  obtain ⟨attributes, fields, container⟩ := node
  unfold compileNode
  refine .skip ((Walk.liftM_result _).trans hResolve) (Walk.registers_liftM _) ?_
  cases hCase : type.kind <;> rw [hCase] at hRole hNested
  case linebreak => contradiction
  case tab => exact hTabRole hRole
  case palette =>
    obtain ⟨hIdentifier, hPalette⟩ := hRole
    refine .skip ((Walk.liftM_result _).trans (hRequired hIdentifier))
      (Walk.registers_liftM _) ?_
    exact hPaletteRole hPalette hNested
  all_goals
    obtain ⟨field, hField, _⟩ := hRole
    exact hFieldRole hNested hField

theorem registers_compileNodes {nodes : List FieldNode} {items : List PassItem}
    (hNamed : context.Named)
    (hNodes : (context.compileNodes path claims nodes).result = .ok (claims', items))
    (hNested : context.NestedRegister path (context.fieldNodes nodes)) :
    (context.compileNodes path claims nodes).Registers context.document.name
      (nodes.flatMap (context.nodeKeys path)) := by
  induction nodes generalizing claims claims' items with
  | nil => rfl
  | cons node rest ih =>
      obtain ⟨_, first, more, hFirst, hMore, _⟩ := compileNodes_cons_result_eq_ok_iff.mp hNodes
      have hSplit : context.fieldNodes (node :: rest) =
          context.ownFields node ++ context.fieldNodes rest := List.flatMap_cons
      rw [hSplit, nestedRegister_append_iff] at hNested
      unfold compileNodes
      rw [List.flatMap_cons]
      refine (registers_compileNode hNamed hFirst hNested.1).bind hFirst ?_
      exact (ih hMore hNested.2).last hMore (Walk.registers_pure _)

end PassContext

/-! ## The keys of a walk -/

namespace Site

/-- The keys that the walk over a site registers. -/
def keys (site : Site) : List LanguageKey :=
  site.walk.emission.keys.map Prod.snd

/-- The keys that the pass at a site registers for itself, nested passes apart:
those of its title, of its tabs and palettes, and of its fields. -/
def ownKeys (site : Site) : List LanguageKey :=
  site.context.titleKeys site.path ++
    site.nodes.flatMap fun node => site.context.shapeKeys site.path node ++
      (site.context.ownFields node).flatMap (site.context.fieldKeys site.path)

variable {site : Site} {key : LanguageKey}

theorem nestedKeys_eq (node : FieldNode) :
    site.context.nestedKeys site.path node = ((site.child? node).map keys).getD [] := by
  unfold PassContext.nestedKeys child?
  cases site.context.child? node <;> rfl

/-- The walk over a site registers the keys of its title and those of its nodes,
all for one document. -/
theorem Succeeds.registers_walk (hSite : site.Succeeds) :
    site.walk.Registers site.context.document.name
      (site.context.titleKeys site.path ++
        site.nodes.flatMap (site.context.nodeKeys site.path)) := by
  induction site using Site.induction with
  | step site ih =>
      obtain ⟨contentType, items, pass, hType, hItems, hClose⟩ :=
        PassContext.compilePass_result_eq_ok_iff.mp hSite.result
      obtain ⟨claims, hNodes⟩ := PassContext.nodesWalk_result_eq_ok_iff.mp hItems
      have hNested : site.context.NestedRegister site.path site.fields := by
        intro node hNode child hChild
        have hMade : site.child? node =
            some ⟨child, site.path.push node.identifierText, node.fields⟩ := by
          rw [child?, hChild]
          rfl
        have hBelow := ih _ (List.mem_filterMap.mpr ⟨node, hNode, hMade⟩)
          (hSite.child hNode hMade)
        -- The nested pass belongs to the same document.
        have hDocument : child.document = site.context.document :=
          PassContext.document_of_ofCollection (PassContext.child?_eq_some_iff.mp hChild).2
        rw [nestedKeys_eq, hMade, ← hDocument]
        exact hBelow.self
      unfold walk PassContext.compilePass
      refine .skip (Walk.emit_result _) rfl ?_
      refine .skip ((Walk.liftM_result _).trans hType) (Walk.registers_liftM _) ?_
      refine (PassContext.registers_registerTitle contentType).bind
        (PassContext.registerTitle_result contentType) ?_
      refine ((PassContext.registers_compileNodes hSite.named hNodes hNested).map hNodes).last
        hItems ?_
      exact .skip ((Walk.liftM_result _).trans hClose) (Walk.registers_liftM _) rfl

theorem mem_ownKeys_iff :
    key ∈ site.ownKeys ↔
      key ∈ site.context.titleKeys site.path ∨
        (∃ node ∈ site.nodes, key ∈ site.context.shapeKeys site.path node) ∨
          ∃ node ∈ site.fields, key ∈ site.context.fieldKeys site.path node := by
  unfold ownKeys fields PassContext.fieldNodes
  rw [List.mem_append, List.mem_flatMap]
  apply or_congr_right
  constructor
  · rintro ⟨node, hNode, hKey⟩
    rcases List.mem_append.mp hKey with hShape | hField
    · exact .inl ⟨node, hNode, hShape⟩
    · obtain ⟨field, hOwn, hListed⟩ := List.mem_flatMap.mp hField
      exact .inr ⟨field, List.mem_flatMap.mpr ⟨node, hNode, hOwn⟩, hListed⟩
  · rintro (⟨node, hNode, hShape⟩ | ⟨field, hField, hListed⟩)
    · exact ⟨node, hNode, List.mem_append_left _ hShape⟩
    · obtain ⟨node, hNode, hOwn⟩ := List.mem_flatMap.mp hField
      exact ⟨node, hNode, List.mem_append_right _ (List.mem_flatMap.mpr ⟨field, hOwn, hListed⟩)⟩

/-- All keys of a pass stand in the language file of its position. -/
theorem standsIn_ownKeys : ∀ key ∈ site.ownKeys, key.StandsIn site.path.base := by
  intro key hKey
  rcases mem_ownKeys_iff.mp hKey with hTitle | ⟨node, _, hShape⟩ | ⟨node, _, hField⟩
  · exact PassContext.standsIn_titleKeys key hTitle
  · exact PassContext.standsIn_shapeKeys key hShape
  · exact PassContext.standsIn_fieldKeys key hField

/-- The keys of a walk are those of its pass and those of the walks that it leads
to. -/
theorem Succeeds.mem_keys_iff_child (hSite : site.Succeeds) :
    key ∈ site.keys ↔ key ∈ site.ownKeys ∨ ∃ child ∈ site.children, key ∈ child.keys := by
  have hNested : (∃ child ∈ site.children, key ∈ child.keys) ↔
      ∃ node ∈ site.fields, key ∈ site.context.nestedKeys site.path node := by
    rw [← List.mem_flatMap, ← flatMap_child?]
    simp only [List.mem_flatMap, nestedKeys_eq]
  rw [hNested, mem_ownKeys_iff, keys, hSite.registers_walk.map_snd, List.mem_append,
    List.mem_flatMap, or_assoc, or_assoc]
  apply or_congr_right
  unfold fields PassContext.fieldNodes
  constructor
  · rintro ⟨node, hNode, hKey⟩
    rcases List.mem_append.mp hKey with hShape | hTree
    · exact .inl ⟨node, hNode, hShape⟩
    · obtain ⟨field, hOwn, hListed⟩ := List.mem_flatMap.mp hTree
      have hField := List.mem_flatMap.mpr ⟨node, hNode, hOwn⟩
      rcases List.mem_append.mp hListed with hHere | hBelow
      · exact .inr (.inl ⟨field, hField, hHere⟩)
      · exact .inr (.inr ⟨field, hField, hBelow⟩)
  · have hInTree (field : FieldNode) (hField : field ∈ site.nodes.flatMap site.context.ownFields)
        (hListed : key ∈ site.context.fieldKeys site.path field ++
          site.context.nestedKeys site.path field) :
        ∃ node ∈ site.nodes, key ∈ site.context.nodeKeys site.path node := by
      obtain ⟨node, hNode, hOwn⟩ := List.mem_flatMap.mp hField
      exact ⟨node, hNode, List.mem_append_right _ (List.mem_flatMap.mpr ⟨field, hOwn, hListed⟩)⟩
    rintro (⟨node, hNode, hShape⟩ | ⟨field, hField, hHere⟩ | ⟨field, hField, hBelow⟩)
    · exact ⟨node, hNode, List.mem_append_left _ hShape⟩
    · exact hInTree field hField (List.mem_append_left _ hHere)
    · exact hInTree field hField (List.mem_append_right _ hBelow)

/-- All keys of a walk stand in one language file. -/
theorem Succeeds.standsIn_keys (hSite : site.Succeeds) :
    ∀ key ∈ site.keys, key.StandsIn site.path.base := by
  induction site using Site.induction with
  | step site ih =>
      intro key hKey
      rcases hSite.mem_keys_iff_child.mp hKey with hHere | ⟨child, hChild, hBelow⟩
      · exact standsIn_ownKeys key hHere
      · -- A nested pass keeps the language file.
        have hBase : child.path.base = site.path.base := by
          obtain ⟨node, _, hMade⟩ := List.mem_filterMap.mp hChild
          obtain ⟨_, _, rfl⟩ := Option.map_eq_some_iff.mp hMade
          rfl
        rw [← hBase]
        exact ih child hChild (hSite.of_mem_children hChild) key hBelow

/-- The keys of a walk are those that its passes register for themselves. -/
theorem Succeeds.mem_keys_iff (hSite : site.Succeeds) :
    key ∈ site.keys ↔ ∃ pass ∈ site.walk.emission.passes, key ∈ pass.site.ownKeys := by
  induction site using Site.induction with
  | step site ih =>
      obtain ⟨own, hOwn, hPasses⟩ := hSite.passes_walk
      rw [hSite.mem_keys_iff_child, hPasses]
      constructor
      · rintro (hHere | ⟨child, hChild, hBelow⟩)
        · refine ⟨own, List.mem_append_right _ (List.mem_singleton.mpr rfl), ?_⟩
          rw [hOwn]
          exact hHere
        · obtain ⟨pass, hPass, hKey⟩ :=
            (ih child hChild (hSite.of_mem_children hChild)).mp hBelow
          exact ⟨pass, List.mem_append_left _ (List.mem_flatMap.mpr ⟨child, hChild, hPass⟩), hKey⟩
      · rintro ⟨pass, hPass, hKey⟩
        rcases List.mem_append.mp hPass with hNested | hLast
        · obtain ⟨child, hChild, hInChild⟩ := List.mem_flatMap.mp hNested
          exact .inr ⟨child, hChild,
            (ih child hChild (hSite.of_mem_children hChild)).mpr ⟨pass, hInChild, hKey⟩⟩
        · rw [List.mem_singleton.mp hLast, hOwn] at hKey
          exact .inl hKey

end Site
end ContentSchema
