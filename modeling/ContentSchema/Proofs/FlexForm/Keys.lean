import ContentSchema.Proofs.FlexForm.Grammar
import ContentSchema.Proofs.Walk.Keys

/-!
# Keys of nested forms

An accepted form registers the keys of its sheets, leaves, containers and items,
each level in order.  Which keys these are is told from the nodes alone.

* `FlexForm.formKeys` lists the keys of a form at a position.
* `FlexForm.registers_expand` says that its expansion registers them.

A leaf is keyed by its own identifier below that of the form: the sheet that it
stands in is NOT part of the key.
-/

namespace ContentSchema

namespace FlexForm

/-! ## The keys, level by level -/

/-- The keys of a field of a form.  There are none for a node without a type. -/
def leafKeys (context : PassContext) (path : LanguagePath) (node : FieldNode) :
    List LanguageKey :=
  let position := path.push node.identifierText
  match context.typeOf? node with
  | some type =>
      PassContext.labelKeys position node type ++ PassContext.itemKeys position node type
  | none => []

/-- The keys of a container of the section at `key`. -/
def containerKeys (context : PassContext) (path : LanguagePath) (key : String)
    (node : FieldNode) : List LanguageKey :=
  let position := key ++ ".container." ++ node.identifierText
  path.entry (position ++ ".title") (node.label.getD node.identifierText) ::
    node.fields.flatMap (leafKeys context (path.push position))

/-- The keys of a section. -/
def sectionKeys (context : PassContext) (path : LanguagePath) (node : FieldNode) :
    List LanguageKey :=
  let key := "sections." ++ node.identifierText
  path.entry (key ++ ".title") (node.label.getD node.identifierText) ::
    node.container.flatMap (containerKeys context path key)

/-- The keys of a leaf of a sheet. -/
def elementKeys (context : PassContext) (path : LanguagePath) (node : FieldNode) :
    List LanguageKey :=
  if node.hasType sectionType = true then sectionKeys context path node
  else leafKeys context path node

/-- The keys of the texts that a sheet shows. -/
def textKeys (path : LanguagePath) (sheet : FieldNode) : List LanguageKey :=
  let key := "sheets." ++ sheet.identifierText
  path.entry (key ++ ".label") (sheet.label.getD sheet.identifierText) ::
    (path.entry? (key ++ ".description") sheet.description ++
      path.entry? (key ++ ".linkTitle") sheet.linkTitle)

/-- The keys of a sheet. -/
def sheetKeys (context : PassContext) (path : LanguagePath) (sheet : FieldNode) :
    List LanguageKey :=
  textKeys path sheet ++ sheet.fields.flatMap (elementKeys context path)

/-- The keys of a form. -/
def formKeys (context : PassContext) (path : LanguagePath) (nodes : List FieldNode) :
    List LanguageKey :=
  if nodes.all fun node => !node.hasType sheetType then
    nodes.flatMap (elementKeys context path)
  else nodes.flatMap (sheetKeys context path)

/-! ## The file of the keys -/

section File

variable {context : PassContext} {path : LanguagePath}

theorem standsIn_leafKeys {node : FieldNode} :
    ∀ key ∈ leafKeys context path node, key.StandsIn path.base := by
  unfold leafKeys
  split
  · exact List.forall_mem_append.mpr
      ⟨PassContext.standsIn_labelKeys, PassContext.standsIn_itemKeys⟩
  · simp

theorem standsIn_sectionKeys {node : FieldNode} :
    ∀ key ∈ sectionKeys context path node, key.StandsIn path.base := by
  refine List.forall_mem_cons.mpr ⟨path.standsIn_entry _ _, ?_⟩
  refine List.forall_mem_flatMap.mpr fun container _ => ?_
  refine List.forall_mem_cons.mpr ⟨path.standsIn_entry _ _, ?_⟩
  exact List.forall_mem_flatMap.mpr fun field _ => standsIn_leafKeys

theorem standsIn_elementKeys {node : FieldNode} :
    ∀ key ∈ elementKeys context path node, key.StandsIn path.base := by
  unfold elementKeys
  split
  · exact standsIn_sectionKeys
  · exact standsIn_leafKeys

theorem standsIn_sheetKeys {sheet : FieldNode} :
    ∀ key ∈ sheetKeys context path sheet, key.StandsIn path.base := by
  refine List.forall_mem_append.mpr ⟨?_, List.forall_mem_flatMap.mpr fun leaf _ =>
    standsIn_elementKeys⟩
  refine List.forall_mem_cons.mpr ⟨path.standsIn_entry _ _, ?_⟩
  exact List.forall_mem_append.mpr ⟨LanguagePath.standsIn_entry?, LanguagePath.standsIn_entry?⟩

theorem standsIn_formKeys {nodes : List FieldNode} :
    ∀ key ∈ formKeys context path nodes, key.StandsIn path.base := by
  unfold formKeys
  split
  · exact List.forall_mem_flatMap.mpr fun leaf _ => standsIn_elementKeys
  · exact List.forall_mem_flatMap.mpr fun sheet _ => standsIn_sheetKeys

end File

/-! ## Expansion, level by level -/

variable {context : PassContext} {path : LanguagePath} {form : String}

theorem registers_leaf {place : Place} {node : FieldNode} {element : String × Value}
    (hLeaf : (leaf context path form place node).result = .ok element) :
    (leaf context path form place node).Registers context.document.name
      (leafKeys context path node) := by
  obtain ⟨⟨hNode, type, hType, hAdmits⟩, _⟩ := leaf_result_eq_ok_iff.mp hLeaf
  have hKind : type.kind ≠ .linebreak := by
    intro hLinebreak
    simp [Place.admits, hLinebreak] at hAdmits
  unfold leaf leafKeys
  rw [hType]
  refine .skip ((Walk.liftM_result _).trans (PassContext.resolve_eq_ok_iff.mpr ⟨hNode, hType⟩))
    (Walk.registers_liftM _) ?_
  rw [if_neg (by simp [hAdmits])]
  refine .skip ((Walk.liftM_result _).trans
    (PassContext.requireIdentifier_eq_ok_iff_hasIdentifier.mpr
      ⟨hNode.hasIdentifier hType hKind, rfl⟩)) (Walk.registers_liftM _) ?_
  refine (PassContext.registers_registerLabels node type).bind
    (PassContext.registerLabels_result _ _ _ _ _) ?_
  exact (PassContext.registers_registerItems node type).last
    (PassContext.registerItems_result _ _ _ _) (Walk.registers_pure _)

theorem registers_containerElements {taken : List String} {nodes : List FieldNode}
    {elements : List (String × Value)}
    (hElements : (containerElements context path form taken nodes).result = .ok elements) :
    (containerElements context path form taken nodes).Registers context.document.name
      (nodes.flatMap (leafKeys context path)) := by
  induction nodes generalizing taken elements with
  | nil => rfl
  | cons node rest ih =>
      unfold containerElements at hElements ⊢
      obtain ⟨_, hLeaf, hRest⟩ := Walk.bind_result_eq_ok_iff.mp hElements
      obtain ⟨_, hTaken, hMore⟩ := Walk.bind_result_eq_ok_iff.mp hRest
      obtain ⟨_, hLater, _⟩ := Walk.bind_result_eq_ok_iff.mp hMore
      refine (registers_leaf hLeaf).bind hLeaf ?_
      refine .skip hTaken (Walk.registers_liftM _) ?_
      exact (ih hLater).last hLater (Walk.registers_pure _)

theorem registers_containers {key : String} {taken : List String} {nodes : List FieldNode}
    {elements : List (String × Value)}
    (hElements : (containers context path form key taken nodes).result = .ok elements) :
    (containers context path form key taken nodes).Registers context.document.name
      (nodes.flatMap (containerKeys context path key)) := by
  induction nodes generalizing taken elements with
  | nil => rfl
  | cons node rest ih =>
      unfold containers at hElements ⊢
      obtain ⟨identifier, hIdentifier, hClaimed⟩ := Walk.bind_result_eq_ok_iff.mp hElements
      obtain ⟨_, rfl⟩ := PassContext.requireIdentifier_eq_ok_iff_hasIdentifier.mp
        ((Walk.liftM_result _).symm.trans hIdentifier)
      obtain ⟨_, hTaken, hGuarded⟩ := Walk.bind_result_eq_ok_iff.mp hClaimed
      obtain ⟨hFields, hTitled⟩ := PassContext.guard_result_eq_ok_iff.mp hGuarded
      obtain ⟨_, hTitle, hInside⟩ := Walk.bind_result_eq_ok_iff.mp hTitled
      obtain ⟨_, hInner, hRest⟩ := Walk.bind_result_eq_ok_iff.mp hInside
      obtain ⟨_, hLater, _⟩ := Walk.bind_result_eq_ok_iff.mp hRest
      refine .skip hIdentifier (Walk.registers_liftM _) ?_
      refine .skip hTaken (Walk.registers_liftM _) ?_
      rw [if_neg hFields, List.flatMap_cons, containerKeys, List.cons_append,
        ← List.singleton_append]
      refine (PassContext.registers_register _ _).bind hTitle ?_
      refine (registers_containerElements hInner).bind hInner ?_
      exact (ih hLater).last hLater (Walk.registers_pure _)

theorem registers_sectionElement {node : FieldNode} {element : Value}
    (hElement : (sectionElement context path form node node.identifierText).result =
      .ok element) :
    (sectionElement context path form node node.identifierText).Registers context.document.name
      (sectionKeys context path node) := by
  unfold sectionElement at hElement ⊢
  obtain ⟨hContainers, hTitled⟩ := PassContext.guard_result_eq_ok_iff.mp hElement
  obtain ⟨_, hTitle, hInside⟩ := Walk.bind_result_eq_ok_iff.mp hTitled
  obtain ⟨_, hInner, _⟩ := Walk.bind_result_eq_ok_iff.mp hInside
  rw [if_neg hContainers, sectionKeys, ← List.singleton_append]
  refine (PassContext.registers_register _ _).bind hTitle ?_
  exact (registers_containers hInner).last hInner (Walk.registers_pure _)

theorem registers_sheetElements {taken taken' : List String} {nodes : List FieldNode}
    {elements : List (String × Value)}
    (hElements : (sheetElements context path form taken nodes).result =
      .ok (taken', elements)) :
    (sheetElements context path form taken nodes).Registers context.document.name
      (nodes.flatMap (elementKeys context path)) := by
  induction nodes generalizing taken taken' elements with
  | nil => rfl
  | cons node rest ih =>
      unfold sheetElements at hElements ⊢
      rw [List.flatMap_cons, elementKeys]
      by_cases hSection : node.hasType sectionType = true
      · rw [if_pos hSection] at hElements ⊢
        obtain ⟨identifier, hIdentifier, hClaimed⟩ := Walk.bind_result_eq_ok_iff.mp hElements
        obtain ⟨_, rfl⟩ := PassContext.requireIdentifier_eq_ok_iff_hasIdentifier.mp
          ((Walk.liftM_result _).symm.trans hIdentifier)
        obtain ⟨_, hTaken, hInside⟩ := Walk.bind_result_eq_ok_iff.mp hClaimed
        obtain ⟨_, hInner, hRest⟩ := Walk.bind_result_eq_ok_iff.mp hInside
        obtain ⟨⟨_, _⟩, hLater, _⟩ := Walk.bind_result_eq_ok_iff.mp hRest
        refine .skip hIdentifier (Walk.registers_liftM _) ?_
        refine .skip hTaken (Walk.registers_liftM _) ?_
        rw [if_pos hSection]
        refine (registers_sectionElement hInner).bind hInner ?_
        exact (ih hLater).last hLater (Walk.registers_pure _)
      · rw [if_neg hSection] at hElements ⊢
        obtain ⟨_, hLeaf, hClaimed⟩ := Walk.bind_result_eq_ok_iff.mp hElements
        obtain ⟨_, hTaken, hRest⟩ := Walk.bind_result_eq_ok_iff.mp hClaimed
        obtain ⟨⟨_, _⟩, hLater, _⟩ := Walk.bind_result_eq_ok_iff.mp hRest
        rw [if_neg hSection]
        refine (registers_leaf hLeaf).bind hLeaf ?_
        refine .skip hTaken (Walk.registers_liftM _) ?_
        exact (ih hLater).last hLater (Walk.registers_pure _)

theorem registers_sheetTexts {sheet : FieldNode} :
    (sheetTexts context path sheet sheet.identifierText).Registers context.document.name
      (textKeys path sheet) := by
  unfold sheetTexts textKeys
  rw [← List.singleton_append]
  refine (PassContext.registers_register _ _).bind (PassContext.register_result _ _ _ _) ?_
  refine (PassContext.registers_registerOptional _ _).bind
    (PassContext.registerOptional_result _ _ _ _) ?_
  exact (PassContext.registers_registerOptional _ _).last
    (PassContext.registerOptional_result _ _ _ _) (Walk.registers_pure _)

theorem registers_sheets {sheetsTaken leavesTaken : List String} {nodes : List FieldNode}
    {elements : List (String × Value)}
    (hSheets : (sheets context path form sheetsTaken leavesTaken nodes).result =
      .ok elements) :
    (sheets context path form sheetsTaken leavesTaken nodes).Registers context.document.name
      (nodes.flatMap (sheetKeys context path)) := by
  induction nodes generalizing sheetsTaken leavesTaken elements with
  | nil => rfl
  | cons sheet rest ih =>
      unfold sheets at hSheets ⊢
      obtain ⟨identifier, hIdentifier, hClaimed⟩ := Walk.bind_result_eq_ok_iff.mp hSheets
      obtain ⟨_, rfl⟩ := PassContext.requireIdentifier_eq_ok_iff_hasIdentifier.mp
        ((Walk.liftM_result _).symm.trans hIdentifier)
      obtain ⟨_, hTaken, hShown⟩ := Walk.bind_result_eq_ok_iff.mp hClaimed
      obtain ⟨_, hTexts, hInside⟩ := Walk.bind_result_eq_ok_iff.mp hShown
      obtain ⟨⟨_, _⟩, hElements, hRest⟩ := Walk.bind_result_eq_ok_iff.mp hInside
      obtain ⟨_, hLater, _⟩ := Walk.bind_result_eq_ok_iff.mp hRest
      refine .skip hIdentifier (Walk.registers_liftM _) ?_
      refine .skip hTaken (Walk.registers_liftM _) ?_
      rw [List.flatMap_cons, sheetKeys, List.append_assoc]
      refine registers_sheetTexts.bind hTexts ?_
      refine (registers_sheetElements hElements).bind hElements ?_
      exact (ih hLater).last hLater (Walk.registers_pure _)

/-- A form that expands registers its keys. -/
theorem registers_expand {nodes : List FieldNode} {value : Value}
    (hForm : (expand context path form nodes).result = .ok value) :
    (expand context path form nodes).Registers context.document.name
      (formKeys context path nodes) := by
  unfold expand sheetLayout? at hForm ⊢
  unfold formKeys
  by_cases hPlain : (nodes.all fun node => !node.hasType sheetType) = true
  · simp only [if_pos hPlain] at hForm ⊢
    obtain ⟨⟨_, _⟩, hElements, _⟩ := Walk.bind_result_eq_ok_iff.mp hForm
    exact (registers_sheetElements hElements).last hElements (Walk.registers_pure _)
  · by_cases hSheets : (nodes.all fun node => node.hasType sheetType) = true
    · simp only [if_neg hPlain, if_pos hSheets] at hForm ⊢
      obtain ⟨_, hElements, _⟩ := Walk.bind_result_eq_ok_iff.mp hForm
      exact (registers_sheets hElements).last hElements (Walk.registers_pure _)
    · simp only [if_neg hPlain, if_neg hSheets, PassContext.fail_result] at hForm
      contradiction

end FlexForm
end ContentSchema
