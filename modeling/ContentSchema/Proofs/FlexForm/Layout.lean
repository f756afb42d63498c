import ContentSchema.Proofs.FlexForm.Acceptance
import ContentSchema.Proofs.FlexForm.Positions

/-!
# The layout of nested forms

The data structure of a form keeps every node that was authored, level by level
and in order, and the sheets only group the leaves.

* `FlexForm.Keeps` says what a data structure lists at every level.
* `FlexForm.LaidOut` is what the grammar asks of the sheets, whatever is on them.
* `FlexForm.keeps_formValue` says that the data structure of a form lists its nodes.
* `FlexForm.elementsIn_formValue` collects the elements of all sheets.

Two layouts of the same leaves have the same elements; their texts are NOT the
same, since every sheet has a title of its own.
-/

namespace ContentSchema

namespace FlexForm

variable {context : PassContext} {path : LanguagePath} {nodes : List FieldNode}

/-! ## What a data structure lists -/

/-- At the end of a way stands an object with the given names, each of them once and
in this order. -/
def ListsAt (form : Value) (way names : List String) : Prop :=
  ∃ entries, form.getPath? way = some (.object entries) ∧ Entries.keys entries = names ∧
    names.Nodup

/-- The data structure kept under `key` has all nodes of a form, under their raw
identifiers. -/
structure Keeps (context : PassContext) (form : Value) (key : String) (nodes : List FieldNode) :
    Prop where
  root : ListsAt form [] [key]
  /-- The sheets are those that were authored, or a single one. -/
  sheets : ListsAt form [key, "sheets"] ((sheetsOf nodes).map Prod.fst)
  leaves : ∀ sheet leaves, (sheet, leaves) ∈ sheetsOf nodes →
    ListsAt form [key, "sheets", sheet, "ROOT", "el"] (leaves.map FieldNode.identifierText)
  containers : ∀ sheet leaves, (sheet, leaves) ∈ sheetsOf nodes → ∀ block ∈ leaves,
    block.type = some sectionType →
      ListsAt form [key, "sheets", sheet, "ROOT", "el", block.identifierText, "el"]
        (block.container.map FieldNode.identifierText)
  fields : ∀ sheet leaves, (sheet, leaves) ∈ sheetsOf nodes → ∀ block ∈ leaves,
    block.type = some sectionType → ∀ container ∈ block.container,
      ListsAt form [key, "sheets", sheet, "ROOT", "el", block.identifierText, "el",
          container.identifierText, "el"]
        (container.fields.map FieldNode.identifierText)
  /-- What is listed for a leaf is an element of its type. -/
  leafType : ∀ sheet leaves, (sheet, leaves) ∈ sheetsOf nodes → ∀ leaf ∈ leaves,
    leaf.type ≠ some sectionType → ∃ type, context.resolve leaf = .ok type ∧
      form.getPath? [key, "sheets", sheet, "ROOT", "el", leaf.identifierText, "type"] =
        some (.string type.name)
  /-- What is listed for a field of a container is an element of its type. -/
  fieldType : ∀ sheet leaves, (sheet, leaves) ∈ sheetsOf nodes → ∀ block ∈ leaves,
    block.type = some sectionType → ∀ container ∈ block.container, ∀ node ∈ container.fields,
      ∃ type, context.resolve node = .ok type ∧
        form.getPath? [key, "sheets", sheet, "ROOT", "el", block.identifierText, "el",
          container.identifierText, "el", node.identifierText, "type"] = some (.string type.name)

/-! ## Elements -/

/-- Nodes with different identifiers are listed by them. -/
theorem listsAt_of_elements {form : Value} {way : List String}
    (element : FieldNode → String × Value)
    (hName : ∀ node, (element node).1 = node.identifierText)
    (hNodup : (nodes.map FieldNode.identifierText).Nodup)
    (hForm : form.getPath? way = some (.object (nodes.map element))) :
    ListsAt form way (nodes.map FieldNode.identifierText) := by
  refine ⟨_, hForm, ?_, hNodup⟩
  rw [Entries.keys, List.map_map]
  exact List.map_congr_left fun node _ => hName node

/-- The element of a field shows the name of its type. -/
theorem getPath?_fieldElement_type {place : Place} {node : FieldNode}
    (hNode : AdmitsField context place node) :
    ∃ type, context.resolve node = .ok type ∧
      (fieldElement context path node).2.getPath? ["type"] = some (.string type.name) := by
  obtain ⟨hResolves, type, hType, _⟩ := hNode
  refine ⟨type, PassContext.resolve_eq_ok_iff.mpr ⟨hResolves, hType⟩, ?_⟩
  -- A description stands in front of the type, if there is one.
  rw [fieldElement, hType]
  show (elementOf path node type).getPath? ["type"] = _
  unfold elementOf
  dsimp only
  cases PassContext.describedPath? (path.push node.identifierText) node type <;> rfl

/-- The way through a section to what a container lists. -/
theorem getPath?_sectionValue_container {block container : FieldNode}
    (hBlock : AdmitsSection context block) (hContainer : container ∈ block.container)
    (rest : List String) :
    (sectionValue context path block).getPath?
        ("el" :: container.identifierText :: "el" :: rest) =
      (Value.object (container.fields.map (fieldElement context (path.push
        ("sections." ++ block.identifierText ++ ".container." ++
          container.identifierText))))).getPath? rest := by
  let key := "sections." ++ block.identifierText
  calc (sectionValue context path block).getPath?
        ("el" :: container.identifierText :: "el" :: rest)
      = (Value.object (block.container.map (containerElement context path key))).getPath?
          (container.identifierText :: "el" :: rest) := Value.getPath?_object rfl _
    _ = (containerElement context path key container).2.getPath? ("el" :: rest) :=
        getPath?_elements (fun _ => rfl) hBlock.distinct hContainer _
    _ = _ := Value.getPath?_object rfl _

/-! ## Sheets -/

/-- The names of the sheets of a form, which differ if it is well formed. -/
theorem WellFormed.nodup_sheetsOf (hForm : WellFormed context nodes) :
    ((sheetsOf nodes).map Prod.fst).Nodup := by
  unfold sheetsOf
  split
  · exact List.nodup_singleton _
  case isFalse hPlain =>
    rw [List.map_map]
    exact hForm.distinctSheets_of_not_plain hPlain

/-- The entries of the data structure are the sheets of the form. -/
theorem getPath?_sheets (context : PassContext) (path : LanguagePath)
    (nodes : List FieldNode) :
    ∃ sheets, (formValue context path nodes).getPath? [structureKey context, "sheets"] =
        some (.object sheets) ∧ Entries.keys sheets = (sheetsOf nodes).map Prod.fst := by
  unfold formValue expand.structureOf sheetsOf
  rw [Value.getPath?_object List.lookup_cons_self, Value.getPath?_object List.lookup_cons_self]
  by_cases hPlain : (nodes.all fun node => !node.hasType sheetType) = true
  · rw [if_pos hPlain, if_pos hPlain]
    exact ⟨_, rfl, rfl⟩
  · rw [if_neg hPlain, if_neg hPlain]
    refine ⟨_, rfl, ?_⟩
    rw [Entries.keys, List.map_map, List.map_map]
    rfl

/-- The data structure of a well-formed form keeps all its nodes. -/
theorem keeps_formValue (hForm : WellFormed context nodes) :
    Keeps context (formValue context path nodes) (structureKey context) nodes := by
  have hField {node : FieldNode} (hNode : node.type ≠ some sectionType) :
      ¬node.hasType sectionType = true := by simpa [FieldNode.hasType] using hNode
  have hSection {node : FieldNode} (hNode : node.type = some sectionType) :
      node.hasType sectionType = true := by simp [FieldNode.hasType, hNode]
  constructor
  case root => exact ⟨_, rfl, rfl, List.nodup_singleton _⟩
  case sheets =>
    obtain ⟨sheets, hSheets, hKeys⟩ := getPath?_sheets context path nodes
    exact ⟨sheets, hSheets, hKeys, hForm.nodup_sheetsOf⟩
  case leaves =>
    intro sheet leaves hSheet
    obtain ⟨_, hNodup⟩ := hForm.of_mem_sheetsOf hSheet
    exact listsAt_of_elements (leafElement context path) leafElement_fst hNodup
      (getPath?_formValue hForm hSheet [])
  case containers =>
    intro sheet leaves hSheet block hBlock hType
    obtain ⟨hAdmits, hNodup⟩ := hForm.of_mem_sheetsOf hSheet
    have hLeaf := (admitsLeaf_of_section (hSection hType)).mp (hAdmits block hBlock)
    refine listsAt_of_elements
      (containerElement context path ("sections." ++ block.identifierText)) (fun _ => rfl)
      hLeaf.distinct ?_
    rw [getPath?_formValue hForm hSheet, getPath?_elements leafElement_fst hNodup hBlock,
      leafElement, if_pos (hSection hType)]
    rfl
  case fields =>
    intro sheet leaves hSheet block hBlock hType container hContainer
    obtain ⟨hAdmits, hNodup⟩ := hForm.of_mem_sheetsOf hSheet
    have hLeaf := (admitsLeaf_of_section (hSection hType)).mp (hAdmits block hBlock)
    refine listsAt_of_elements (fieldElement context (path.push ("sections." ++
      block.identifierText ++ ".container." ++ container.identifierText))) (fun _ => rfl)
      (hLeaf.containers container hContainer).distinct ?_
    rw [getPath?_formValue hForm hSheet, getPath?_elements leafElement_fst hNodup hBlock,
      leafElement, if_pos (hSection hType), getPath?_sectionValue_container hLeaf hContainer]
    rfl
  case leafType =>
    intro sheet leaves hSheet leaf hMem hType
    obtain ⟨hAdmits, hNodup⟩ := hForm.of_mem_sheetsOf hSheet
    have hLeaf := (admitsLeaf_of_field (hField hType)).mp (hAdmits leaf hMem)
    rw [getPath?_formValue hForm hSheet, getPath?_elements leafElement_fst hNodup hMem,
      leafElement, if_neg (hField hType)]
    exact getPath?_fieldElement_type hLeaf
  case fieldType =>
    intro sheet leaves hSheet block hBlock hType container hContainer node hNode
    obtain ⟨hAdmits, hNodup⟩ := hForm.of_mem_sheetsOf hSheet
    have hLeaf := (admitsLeaf_of_section (hSection hType)).mp (hAdmits block hBlock)
    have hInside := hLeaf.containers container hContainer
    rw [getPath?_formValue hForm hSheet, getPath?_elements leafElement_fst hNodup hBlock,
      leafElement, if_pos (hSection hType), getPath?_sectionValue_container hLeaf hContainer,
      getPath?_elements (fun _ => rfl) hInside.distinct hNode]
    exact getPath?_fieldElement_type (hInside.fields node hNode)

/-! ## Layouts -/

/-- The sheets of a form are in order, whatever is on them. -/
structure LaidOut (nodes : List FieldNode) : Prop where
  /-- None of the nodes is a sheet, or all of them are. -/
  layout : (∀ node ∈ nodes, node.type ≠ some sheetType) ∨
    ∀ node ∈ nodes, node.type = some sheetType
  identifiers : ∀ sheet ∈ nodes, sheet.type = some sheetType → sheet.HasIdentifier
  distinct :
    ((nodes.filter fun node => node.hasType sheetType).map FieldNode.identifierText).Nodup

/-- A form is well formed if its sheets are in order and its leaves are. -/
theorem wellFormed_of_laidOut (hNodes : LaidOut nodes)
    (hLeaves : ∀ leaf ∈ leaves nodes, AdmitsLeaf context leaf)
    (hDistinct : ((leaves nodes).map FieldNode.identifierText).Nodup) :
    WellFormed context nodes where
  layout := by
    simpa [FieldNode.hasType] using hNodes.layout
  sheets := fun sheet hSheet hType =>
    hNodes.identifiers sheet hSheet (by simpa [FieldNode.hasType] using hType)
  distinctSheets := hNodes.distinct
  leaves := hLeaves
  distinctLeaves := hDistinct

/-- The sheets of a well-formed form are in order. -/
theorem WellFormed.laidOut (hForm : WellFormed context nodes) : LaidOut nodes := by
  obtain ⟨hLayout, hSheets, hDistinct, _, _⟩ := hForm
  simp only [FieldNode.hasType, decide_eq_true_eq, decide_eq_false_iff_not] at hLayout hSheets
  exact ⟨hLayout, hSheets, hDistinct⟩

/-- The entries of the object at the end of a way, if there is one. -/
def entriesAt (form : Value) (way : List String) : List (String × Value) :=
  match form.getPath? way with
  | some (.object entries) => entries
  | _ => []

/-- The elements of all sheets of a data structure, one sheet after another. -/
def elementsIn (key : String) (form : Value) : List (String × Value) :=
  (entriesAt form [key, "sheets"]).flatMap fun sheet => entriesAt sheet.2 ["ROOT", "el"]

theorem entriesAt_sheetElement (sheet : FieldNode) :
    entriesAt (sheetElement context path sheet).2 ["ROOT", "el"] =
      sheet.fields.map (leafElement context path) := by
  rw [entriesAt, getPath?_sheetElement]
  rfl

/-- The elements of a form whose sheets are in order are those of its leaves. -/
theorem elementsIn_formValue (hNodes : LaidOut nodes) :
    elementsIn (structureKey context) (formValue context path nodes) =
      (leaves nodes).map (leafElement context path) := by
  have hRoot (sheets : List (String × Value)) :
      entriesAt (expand.structureOf context sheets) [structureKey context, "sheets"] = sheets := by
    rw [entriesAt, expand.structureOf, Value.getPath?_object List.lookup_cons_self,
      Value.getPath?_object List.lookup_cons_self]
    rfl
  rw [elementsIn, formValue, hRoot]
  by_cases hPlain : (nodes.all fun node => !node.hasType sheetType) = true
  · rw [if_pos hPlain, leaves_of_plain (by simpa using hPlain)]
    exact List.append_nil _
  · have hSheets : ∀ node ∈ nodes, node.hasType sheetType = true := by
      rcases hNodes.layout with hNone | hAll
      · exact absurd (by simpa [FieldNode.hasType] using hNone) hPlain
      · simpa [FieldNode.hasType] using hAll
    rw [if_neg hPlain, leaves_of_sheets hSheets, List.map_flatMap, List.flatMap_map]
    exact congrArg (fun elements => nodes.flatMap elements) (funext entriesAt_sheetElement)

end FlexForm
end ContentSchema
