import ContentSchema.Proofs.Entries.Writes
import ContentSchema.Proofs.FlexForm.Grammar
import ContentSchema.Proofs.Language.Path

/-!
# Labels in nested forms

Where the labels of a nested form are found in its data structure, and which paths
they have.  A field in a sheet is labelled below the form itself, and one in a
container below its section and its container.

* `FlexForm.LabelledAt` states the paths.
* `FlexForm.getPath?_formValue` leads to the elements of a sheet.
* `FlexForm.labelledAt_formValue` says that the data structure of a form has them.

The sheet is part of the way to an element in the data structure; it is NOT part
of the path of a label.
-/

namespace ContentSchema

namespace FlexForm

/-- The sheets of a form with their identifiers, each with its leaves.  Plain
leaves make up one sheet. -/
def sheetsOf (nodes : List FieldNode) : List (String × List FieldNode) :=
  if nodes.all fun node => !node.hasType sheetType then [(defaultSheet, nodes)]
  else nodes.map fun sheet => (sheet.identifierText, sheet.fields)

/-- The labels of the fields of a form at the end of a way, in the data structure
that is kept under `key`. -/
structure LabelledAt (form : Value) (key file : String) (way : List String)
    (nodes : List FieldNode) : Prop where
  /-- A field is labelled below the form, whatever sheet it stands in. -/
  leaf : ∀ sheet leaves, (sheet, leaves) ∈ sheetsOf nodes → ∀ node ∈ leaves,
    node.hasType sectionType = false →
      form.getPath? [key, "sheets", sheet, "ROOT", "el", node.identifierText, "label"] =
        some (.string (textPath file (way ++ [node.identifierText, "label"])))
  /-- A field in a container is labelled below the section and the container. -/
  contained : ∀ sheet leaves, (sheet, leaves) ∈ sheetsOf nodes → ∀ block ∈ leaves,
    block.hasType sectionType = true → ∀ container ∈ block.container, ∀ node ∈ container.fields,
      form.getPath? [key, "sheets", sheet, "ROOT", "el", block.identifierText, "el",
          container.identifierText, "el", node.identifierText, "label"] =
        some (.string (textPath file (way ++ ["sections", block.identifierText, "container",
          container.identifierText, node.identifierText, "label"])))

variable {context : PassContext} {path : LanguagePath} {nodes : List FieldNode}

/-- A well-formed form that has sheets has nothing else. -/
theorem WellFormed.sheets_of_not_plain (hForm : WellFormed context nodes)
    (hPlain : ¬(nodes.all fun node => !node.hasType sheetType) = true) :
    ∀ node ∈ nodes, node.hasType sheetType = true :=
  hForm.layout.resolve_left fun hNone => hPlain (by simpa using hNone)

theorem WellFormed.distinctSheets_of_not_plain (hForm : WellFormed context nodes)
    (hPlain : ¬(nodes.all fun node => !node.hasType sheetType) = true) :
    (nodes.map FieldNode.identifierText).Nodup := by
  have hAll : (nodes.filter fun node => node.hasType sheetType) = nodes :=
    List.filter_eq_self.mpr (hForm.sheets_of_not_plain hPlain)
  rw [← hAll]
  exact hForm.distinctSheets

/-- The leaves of one sheet are admitted and have different identifiers. -/
theorem WellFormed.of_mem_sheetsOf (hForm : WellFormed context nodes) {sheet : String}
    {leaves : List FieldNode} (hSheet : (sheet, leaves) ∈ sheetsOf nodes) :
    (∀ node ∈ leaves, AdmitsLeaf context node) ∧ (leaves.map FieldNode.identifierText).Nodup := by
  unfold sheetsOf at hSheet
  by_cases hPlain : (nodes.all fun node => !node.hasType sheetType) = true
  · rw [if_pos hPlain] at hSheet
    obtain ⟨_, rfl⟩ := Prod.mk.inj (List.mem_singleton.mp hSheet)
    exact (wellFormed_of_plain (by simpa using hPlain)).mp hForm
  · rw [if_neg hPlain] at hSheet
    obtain ⟨node, hNode, hMade⟩ := List.mem_map.mp hSheet
    obtain ⟨_, rfl⟩ := Prod.mk.inj hMade
    obtain ⟨_, _, hAdmits, hNodup⟩ :=
      (wellFormed_of_sheets (hForm.sheets_of_not_plain hPlain)).mp hForm
    refine ⟨fun leaf hLeaf => hAdmits leaf (List.mem_flatMap.mpr ⟨node, hNode, hLeaf⟩), ?_⟩
    -- The leaves of one sheet stand together among all leaves.
    have hPart : node.fields.Sublist (nodes.flatMap FieldNode.fields) :=
      List.sublist_flatten_of_mem (List.mem_map_of_mem hNode)
    exact hNodup.sublist (hPart.map FieldNode.identifierText)

/-! ## Elements -/

/-- Where identifiers differ, an element is found under that of its node. -/
theorem getPath?_elements {element : FieldNode → String × Value}
    (hName : ∀ node, (element node).1 = node.identifierText)
    (hNodup : (nodes.map FieldNode.identifierText).Nodup) {node : FieldNode}
    (hNode : node ∈ nodes) (rest : List String) :
    (Value.object (nodes.map element)).getPath? (node.identifierText :: rest) =
      (element node).2.getPath? rest := by
  have hKeys : Entries.keys (nodes.map element) = nodes.map FieldNode.identifierText := by
    rw [Entries.keys, List.map_map]
    exact List.map_congr_left fun node _ => hName node
  have hDistinct : Entries.Distinct (nodes.map element) := by
    rw [Entries.Distinct, hKeys]
    exact hNodup
  apply Value.getPath?_object
  rw [← Entries.mem_iff_lookup hDistinct, ← hName node]
  exact List.mem_map_of_mem hNode

theorem leafElement_fst (node : FieldNode) :
    (leafElement context path node).1 = node.identifierText := by
  unfold leafElement
  split <;> rfl

/-- The element of a field shows the path of its label. -/
theorem getPath?_fieldElement {place : Place} {node : FieldNode}
    (hNode : AdmitsField context place node) :
    (fieldElement context path node).2.getPath? ["label"] =
      some (.string (textPath path.base (path.segments ++ [node.identifierText, "label"]))) := by
  obtain ⟨_, type, hType, _⟩ := hNode
  rw [fieldElement, hType, ← LanguagePath.pathFor_push]
  rfl

/-- The position of a container takes four steps at once. -/
theorem container_position_eq (block container : String) :
    "sections." ++ block ++ ".container." ++ container =
      ".".intercalate ["sections", block, "container", container] := by
  have hContainer : ".container." ++ container = "." ++ ("container." ++ container) := by
    rw [← String.append_assoc]
    rfl
  simp [String.append_assoc, hContainer]

/-- The element of a section leads to the fields of its containers. -/
theorem getPath?_sectionValue {block container node : FieldNode}
    (hBlock : AdmitsSection context block) (hContainer : container ∈ block.container)
    (hNode : node ∈ container.fields) :
    (sectionValue context path block).getPath?
        ["el", container.identifierText, "el", node.identifierText, "label"] =
      some (.string (textPath path.base (path.segments ++ ["sections", block.identifierText,
        "container", container.identifierText, node.identifierText, "label"]))) := by
  have hInside := hBlock.containers container hContainer
  let key := "sections." ++ block.identifierText
  let position := key ++ ".container." ++ container.identifierText
  have hWay : textPath path.base ((path.segments ++ [position]) ++ [node.identifierText, "label"]) =
      textPath path.base (path.segments ++ ["sections", block.identifierText, "container",
        container.identifierText, node.identifierText, "label"]) := by
    rw [List.append_assoc, List.singleton_append, show position = _ from container_position_eq _ _,
      textPath_joined path.base path.segments (List.cons_ne_nil _ _), List.append_assoc]
    rfl
  calc (sectionValue context path block).getPath?
        ["el", container.identifierText, "el", node.identifierText, "label"]
      = (Value.object (block.container.map (containerElement context path key))).getPath?
          [container.identifierText, "el", node.identifierText, "label"] :=
        Value.getPath?_object rfl _
    _ = (containerElement context path key container).2.getPath?
          ["el", node.identifierText, "label"] :=
        getPath?_elements (fun _ => rfl) hBlock.distinct hContainer _
    _ = (Value.object (container.fields.map
          (fieldElement context (path.push position)))).getPath?
            [node.identifierText, "label"] := Value.getPath?_object rfl _
    _ = (fieldElement context (path.push position) node).2.getPath? ["label"] :=
        getPath?_elements (fun _ => rfl) hInside.distinct hNode _
    _ = some (.string (textPath path.base
          ((path.segments ++ [position]) ++ [node.identifierText, "label"]))) :=
        getPath?_fieldElement (hInside.fields node hNode)
    _ = _ := by rw [hWay]

/-! ## Sheets -/

/-- What a sheet shows besides its elements stands under other keys. -/
theorem lookup_el_textsOf (sheet : FieldNode) (elements : Value) :
    (textsOf path sheet ++ [("type", Value.string "array"), ("el", elements)]).lookup "el" =
      some elements := by
  unfold textsOf
  cases sheet.description <;> cases sheet.linkTitle <;> rfl

/-- Where sheets differ, a sheet is found with its elements. -/
theorem getPath?_sheetElement {sheet : FieldNode} (rest : List String) :
    (sheetElement context path sheet).2.getPath? ("ROOT" :: "el" :: rest) =
      (Value.object (sheet.fields.map (leafElement context path))).getPath? rest := by
  refine (Value.getPath?_object List.lookup_cons_self _).trans ?_
  exact Value.getPath?_object (lookup_el_textsOf sheet _) _

/-- The elements of a sheet are found in the data structure of its form. -/
theorem getPath?_formValue (hForm : WellFormed context nodes) {sheet : String}
    {leaves : List FieldNode} (hSheet : (sheet, leaves) ∈ sheetsOf nodes) (rest : List String) :
    (formValue context path nodes).getPath?
        (structureKey context :: "sheets" :: sheet :: "ROOT" :: "el" :: rest) =
      (Value.object (leaves.map (leafElement context path))).getPath? rest := by
  unfold formValue expand.structureOf
  unfold sheetsOf at hSheet
  rw [Value.getPath?_object List.lookup_cons_self, Value.getPath?_object List.lookup_cons_self]
  by_cases hPlain : (nodes.all fun node => !node.hasType sheetType) = true
  · rw [if_pos hPlain] at hSheet ⊢
    obtain ⟨rfl, rfl⟩ := Prod.mk.inj (List.mem_singleton.mp hSheet)
    rw [Value.getPath?_object List.lookup_cons_self]
    exact (Value.getPath?_object List.lookup_cons_self _).trans (Value.getPath?_object rfl _)
  · rw [if_neg hPlain] at hSheet ⊢
    obtain ⟨node, hNode, hMade⟩ := List.mem_map.mp hSheet
    obtain ⟨rfl, rfl⟩ := Prod.mk.inj hMade
    rw [getPath?_elements (fun _ => rfl) (hForm.distinctSheets_of_not_plain hPlain) hNode,
      getPath?_sheetElement]

/-! ## Forms -/

/-- The data structure of a form shows the paths of its labels. -/
theorem labelledAt_formValue (hForm : WellFormed context nodes) :
    LabelledAt (formValue context path nodes) (structureKey context) path.base path.segments
      nodes where
  leaf := by
    intro sheet leaves hSheet node hNode hField
    obtain ⟨hAdmits, hNodup⟩ := hForm.of_mem_sheetsOf hSheet
    have hLeaf := (admitsLeaf_of_field (by simp [hField])).mp (hAdmits node hNode)
    have hElement : leafElement context path node = fieldElement context path node :=
      if_neg (by simp [hField])
    rw [getPath?_formValue hForm hSheet, getPath?_elements leafElement_fst hNodup hNode, hElement]
    exact getPath?_fieldElement hLeaf
  contained := by
    intro sheet leaves hSheet block hBlock hSection container hContainer node hNode
    obtain ⟨hAdmits, hNodup⟩ := hForm.of_mem_sheetsOf hSheet
    have hLeaf := (admitsLeaf_of_section hSection).mp (hAdmits block hBlock)
    have hElement : leafElement context path block =
        (block.identifierText, sectionValue context path block) := if_pos hSection
    rw [getPath?_formValue hForm hSheet, getPath?_elements leafElement_fst hNodup hBlock, hElement]
    exact getPath?_sectionValue hLeaf hContainer hNode

end FlexForm
end ContentSchema
