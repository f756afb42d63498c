import ContentSchema.Proofs.FlexForm.Grammar

/-!
# Accepted forms

Which nested forms are accepted, told by what the compiler resolves their nodes
to.

* `FlexForm.IsElement` and `FlexForm.IsRendered` say what a field resolves to.
* `FlexForm.admitsLeaf_iff` says what a leaf has to be, down to the fields of the
  containers of a section.
* `FlexForm.expand_accepts_iff` says which forms expand.

Identifiers inside a container are NOT compared with those outside.
-/

namespace ContentSchema

namespace FlexForm

variable {context : PassContext} {node : FieldNode}

/-- The node resolves to a form element. -/
def IsElement (context : PassContext) (node : FieldNode) : Prop :=
  ∃ type, context.resolve node = .ok type ∧ type.kind = .ordinary

/-- The node resolves to a form element that is rendered. -/
def IsRendered (context : PassContext) (node : FieldNode) : Prop :=
  ∃ type, context.resolve node = .ok type ∧ type.kind = .ordinary ∧ type.renderable = true

/-! ## What may stand where -/

theorem admitsField_sheet_iff : AdmitsField context .sheet node ↔ IsElement context node := by
  simp only [AdmitsField, IsElement, PassContext.resolve_eq_ok_iff, Place.admits,
    decide_true, Bool.true_or, Bool.and_true, decide_eq_true_eq]
  constructor
  · rintro ⟨hNode, type, hType, hKind⟩
    exact ⟨type, ⟨hNode, hType⟩, hKind⟩
  · rintro ⟨type, ⟨hNode, hType⟩, hKind⟩
    exact ⟨hNode, type, hType, hKind⟩

theorem admitsField_container_iff :
    AdmitsField context .container node ↔ IsRendered context node := by
  simp only [AdmitsField, IsRendered, PassContext.resolve_eq_ok_iff, Place.admits,
    reduceCtorEq, decide_false, Bool.false_or, Bool.and_eq_true, decide_eq_true_eq]
  constructor
  · rintro ⟨hNode, type, hType, hKind⟩
    exact ⟨type, ⟨hNode, hType⟩, hKind⟩
  · rintro ⟨type, ⟨hNode, hType⟩, hKind⟩
    exact ⟨hNode, type, hType, hKind⟩

theorem admitsContainer_iff :
    AdmitsContainer context node ↔
      node.HasIdentifier ∧ node.fields ≠ [] ∧ (∀ field ∈ node.fields, IsRendered context field) ∧
        (node.fields.map FieldNode.identifierText).Nodup := by
  simp only [← admitsField_container_iff]
  exact ⟨fun ⟨hIdentifier, hNonempty, hFields, hDistinct⟩ =>
      ⟨hIdentifier, hNonempty, hFields, hDistinct⟩,
    fun ⟨hIdentifier, hNonempty, hFields, hDistinct⟩ =>
      ⟨hIdentifier, hNonempty, hFields, hDistinct⟩⟩

theorem admitsSection_iff :
    AdmitsSection context node ↔
      node.HasIdentifier ∧ node.container ≠ [] ∧
        (∀ container ∈ node.container,
          container.HasIdentifier ∧ container.fields ≠ [] ∧
            (∀ field ∈ container.fields, IsRendered context field) ∧
            (container.fields.map FieldNode.identifierText).Nodup) ∧
        (node.container.map FieldNode.identifierText).Nodup := by
  simp only [← admitsContainer_iff]
  exact ⟨fun ⟨hIdentifier, hNonempty, hContainers, hDistinct⟩ =>
      ⟨hIdentifier, hNonempty, hContainers, hDistinct⟩,
    fun ⟨hIdentifier, hNonempty, hContainers, hDistinct⟩ =>
      ⟨hIdentifier, hNonempty, hContainers, hDistinct⟩⟩

/-- A leaf is a section or a form element, as its type name says. -/
theorem admitsLeaf_iff :
    AdmitsLeaf context node ↔
      (node.type = some sectionType → AdmitsSection context node) ∧
        (node.type ≠ some sectionType → IsElement context node) := by
  by_cases hSection : node.type = some sectionType
  · rw [admitsLeaf_of_section (by simp [FieldNode.hasType, hSection])]
    exact ⟨fun hNode => ⟨fun _ => hNode, fun hNot => absurd hSection hNot⟩,
      fun hNode => hNode.1 hSection⟩
  · rw [admitsLeaf_of_field (by simp [FieldNode.hasType, hSection]), admitsField_sheet_iff]
    exact ⟨fun hNode => ⟨fun hIs => absurd hIs hSection, fun _ => hNode⟩,
      fun hNode => hNode.2 hSection⟩

/-! ## Forms -/

/-- **The grammar of forms.**  A form is accepted exactly if it has either no sheets
or nothing else, its sheets and its leaves are told apart by their identifiers, each
section among the leaves has containers of rendered form elements, which differ in
the same way, and every other leaf is a form element. -/
theorem expand_accepts_iff {path : LanguagePath} {form : String} {nodes : List FieldNode} :
    (∃ value, (expand context path form nodes).result = .ok value) ↔
      ((∀ node ∈ nodes, node.type ≠ some "Sheet") ∨
        ∀ node ∈ nodes, node.type = some "Sheet") ∧
      (∀ sheet ∈ nodes, sheet.type = some "Sheet" → sheet.HasIdentifier) ∧
      ((nodes.filter fun node => node.type = some "Sheet").map
        FieldNode.identifierText).Nodup ∧
      (∀ leaf ∈ leaves nodes, leaf.type = some "Section" →
        leaf.HasIdentifier ∧ leaf.container ≠ [] ∧
          (∀ container ∈ leaf.container,
            container.HasIdentifier ∧ container.fields ≠ [] ∧
              (∀ field ∈ container.fields, IsRendered context field) ∧
              (container.fields.map FieldNode.identifierText).Nodup) ∧
          (leaf.container.map FieldNode.identifierText).Nodup) ∧
      (∀ leaf ∈ leaves nodes, leaf.type ≠ some "Section" → IsElement context leaf) ∧
      ((leaves nodes).map FieldNode.identifierText).Nodup := by
  have hExpands : (∃ value, (expand context path form nodes).result = .ok value) ↔
      WellFormed context nodes := by
    simp only [expand_result_eq_ok_iff, exists_and_left, exists_eq, and_true]
  have hSheet (node : FieldNode) : node.hasType sheetType = true ↔ node.type = some "Sheet" :=
    decide_eq_true_iff
  have hPlain (node : FieldNode) : node.hasType sheetType = false ↔ node.type ≠ some "Sheet" :=
    decide_eq_false_iff_not
  rw [hExpands]
  simp only [← admitsSection_iff]
  constructor
  · rintro ⟨hLayout, hSheets, hDistinctSheets, hLeaves, hDistinct⟩
    simp only [hSheet, hPlain] at hLayout hSheets
    simp only [admitsLeaf_iff] at hLeaves
    exact ⟨hLayout, hSheets, hDistinctSheets, fun leaf hLeaf => (hLeaves leaf hLeaf).1,
      fun leaf hLeaf => (hLeaves leaf hLeaf).2, hDistinct⟩
  · rintro ⟨hLayout, hSheets, hDistinctSheets, hSections, hElements, hDistinct⟩
    simp only [← hSheet, ← hPlain] at hLayout hSheets
    refine ⟨hLayout, hSheets, hDistinctSheets, fun leaf hLeaf => ?_, hDistinct⟩
    exact admitsLeaf_iff.mpr ⟨hSections leaf hLeaf, hElements leaf hLeaf⟩

end FlexForm
end ContentSchema
