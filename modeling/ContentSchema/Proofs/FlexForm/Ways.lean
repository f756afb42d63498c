import ContentSchema.Proofs.FlexForm.Keys
import ContentSchema.Proofs.Pass.Identifiers
import ContentSchema.Proofs.Walk.Ways
import Mathlib.Tactic.MkIffOfInductiveProp

/-!
# Ways to the texts of a nested form

The keys of a form lie below its position, those of sheets and of sections behind a
fixed word and those of a leaf behind its identifier.  Where no identifier has a dot
each key tells the node that it belongs to.

* `FlexForm.FormWay` are the ways to the texts of a form, put together from those of
  its sheets, sections and leaves.
* `FlexForm.exists_formWay` says that every key of a form lies at the end of one.
* `FlexForm.FormWay.text_eq` says when a way leads to one text only.

The word for sheets needs NO protection from leaves of that name, since a leaf has
no text two steps below its identifier; the word for sections does.
-/

namespace ContentSchema

/-! ## Identifiers without dots -/

namespace FieldNode

/-- No identifier in the trees of the nodes has a dot. -/
def DotlessAll (nodes : List FieldNode) : Prop :=
  ∀ identifier ∈ allIdentifiers nodes, Text.Dotless identifier

instance (nodes : List FieldNode) : Decidable (DotlessAll nodes) :=
  inferInstanceAs (Decidable (∀ identifier ∈ allIdentifiers nodes, Text.Dotless identifier))

variable {nodes : List FieldNode} {node : FieldNode}

theorem mem_identifiers_of_container {identifier : String}
    (hNested : identifier ∈ allIdentifiers node.container) : identifier ∈ node.identifiers := by
  obtain ⟨attributes, fields, container⟩ := node
  exact List.mem_append_right _ (List.mem_append_right _ hNested)

theorem DotlessAll.identifierText (hNodes : DotlessAll nodes) (hNode : node ∈ nodes) :
    Text.Dotless node.identifierText := by
  unfold FieldNode.identifierText
  cases hIdentifier : node.identifier with
  | none => decide
  | some identifier =>
      exact hNodes identifier
        (mem_allIdentifiers_iff.mpr ⟨node, hNode, mem_identifiers_of_identifier hIdentifier⟩)

theorem DotlessAll.fields (hNodes : DotlessAll nodes) (hNode : node ∈ nodes) :
    DotlessAll node.fields := by
  intro identifier hMem
  exact hNodes identifier
    (mem_allIdentifiers_iff.mpr ⟨node, hNode, mem_identifiers_of_fields hMem⟩)

theorem DotlessAll.container (hNodes : DotlessAll nodes) (hNode : node ∈ nodes) :
    DotlessAll node.container := by
  intro identifier hMem
  exact hNodes identifier
    (mem_allIdentifiers_iff.mpr ⟨node, hNode, mem_identifiers_of_container hMem⟩)

end FieldNode

namespace FlexForm

open PassContext (LabelWay)

/-! ## Ways, level by level -/

/-- The ways from a container to its texts. -/
inductive ContainerWay (context : PassContext) (container : FieldNode) :
    List String → String → Prop where
  | title : ContainerWay context container ["title"]
      (container.label.getD container.identifierText)
  | field {field : FieldNode} {type : TypeDescriptor} {way : List String} {text : String}
      (hField : field ∈ container.fields) (hType : context.typeOf? field = some type)
      (inner : LabelWay field type way text) :
      ContainerWay context container (field.identifierText :: way) text

/-- The ways from a section to its texts. -/
inductive SectionWay (context : PassContext) (node : FieldNode) :
    List String → String → Prop where
  | title : SectionWay context node ["title"] (node.label.getD node.identifierText)
  | container {container : FieldNode} {way : List String} {text : String}
      (hContainer : container ∈ node.container)
      (inner : ContainerWay context container way text) :
      SectionWay context node ("container" :: container.identifierText :: way) text

/-- The last step from a sheet to each of its texts. -/
inductive SheetStep (sheet : FieldNode) : String → String → Prop where
  | label : SheetStep sheet "label" (sheet.label.getD sheet.identifierText)
  | description {text : String} (hText : sheet.description = some text) :
      SheetStep sheet "description" text
  | linkTitle {text : String} (hText : sheet.linkTitle = some text) :
      SheetStep sheet "linkTitle" text

/-- The ways from a form to the texts of its sheets, sections and leaves. -/
inductive FormWay (context : PassContext) (nodes : List FieldNode) :
    List String → String → Prop where
  | sheet {sheet : FieldNode} {step text : String} (hSheet : sheet ∈ nodes)
      (hType : sheet.hasType sheetType = true) (inner : SheetStep sheet step text) :
      FormWay context nodes ["sheets", sheet.identifierText, step] text
  | inSection {leaf : FieldNode} {way : List String} {text : String}
      (hLeaf : leaf ∈ leaves nodes) (hSection : leaf.hasType sectionType = true)
      (inner : SectionWay context leaf way text) :
      FormWay context nodes ("sections" :: leaf.identifierText :: way) text
  | leaf {leaf : FieldNode} {type : TypeDescriptor} {way : List String} {text : String}
      (hLeaf : leaf ∈ leaves nodes) (hField : leaf.hasType sectionType = false)
      (hType : context.typeOf? leaf = some type) (inner : LabelWay leaf type way text) :
      FormWay context nodes (leaf.identifierText :: way) text

/-! ## Keys lie at the end of ways -/

variable {context : PassContext} {path : LanguagePath} {nodes : List FieldNode}
  {node : FieldNode} {key : LanguageKey}

theorem exists_leafWay (hStep : Text.Dotless node.identifierText)
    (hKey : key ∈ leafKeys context path node) :
    ∃ type way, context.typeOf? node = some type ∧ LabelWay node type way key.default ∧
      key.steps = path.steps ++ node.identifierText :: way := by
  unfold leafKeys at hKey
  split at hKey
  case h_1 type hType =>
    obtain ⟨way, hWay, hSteps⟩ := PassContext.exists_labelWay hKey
    rw [path.steps_push, Text.split_of_dotless hStep, List.append_assoc] at hSteps
    exact ⟨type, way, hType, hWay, hSteps⟩
  case h_2 => contradiction

theorem split_sectionKey {identifier : String} (hStep : Text.Dotless identifier) :
    Text.split '.' ("sections." ++ identifier) = ["sections", identifier] :=
  Text.split_word_append_of_dotless "sections" "sections." (by decide) (by decide) hStep

theorem split_containerKey {identifier container : String} (hStep : Text.Dotless identifier)
    (hContainer : Text.Dotless container) :
    Text.split '.' ("sections." ++ identifier ++ ".container." ++ container) =
      ["sections", identifier, "container", container] := by
  rw [Text.split_append_word_append "container" ".container." (by decide) (by decide),
    split_sectionKey hStep, Text.split_of_dotless hContainer]
  rfl

theorem exists_containerWay {inSection : FieldNode}
    (hSection : Text.Dotless inSection.identifierText)
    (hStep : Text.Dotless node.identifierText) (hFields : FieldNode.DotlessAll node.fields)
    (hKey : key ∈ containerKeys context path ("sections." ++ inSection.identifierText) node) :
    ∃ way, ContainerWay context node way key.default ∧
      key.steps = path.steps ++
        "sections" :: inSection.identifierText :: "container" :: node.identifierText :: way := by
  have hPosition := split_containerKey hSection hStep
  rcases List.mem_cons.mp hKey with rfl | hField
  · refine ⟨_, .title, ?_⟩
    rw [LanguagePath.steps_entry_append_word "title" ".title" (by decide) (by decide), hPosition]
    rfl
  · obtain ⟨field, hField, hKey⟩ := List.mem_flatMap.mp hField
    obtain ⟨type, way, hType, hWay, hSteps⟩ :=
      exists_leafWay (hFields.identifierText hField) hKey
    rw [path.steps_push, hPosition] at hSteps
    exact ⟨_, .field hField hType hWay, by simpa using hSteps⟩

theorem exists_sectionWay (hStep : Text.Dotless node.identifierText)
    (hContainers : FieldNode.DotlessAll node.container)
    (hKey : key ∈ sectionKeys context path node) :
    ∃ way, SectionWay context node way key.default ∧
      key.steps = path.steps ++ "sections" :: node.identifierText :: way := by
  rcases List.mem_cons.mp hKey with rfl | hContainer
  · refine ⟨_, .title, ?_⟩
    rw [LanguagePath.steps_entry_append_word "title" ".title" (by decide) (by decide),
      split_sectionKey hStep]
    rfl
  · obtain ⟨container, hContainer, hKey⟩ := List.mem_flatMap.mp hContainer
    obtain ⟨way, hWay, hSteps⟩ := exists_containerWay hStep
      (hContainers.identifierText hContainer) (hContainers.fields hContainer) hKey
    exact ⟨_, .container hContainer hWay, hSteps⟩

theorem exists_sheetStep (hStep : Text.Dotless node.identifierText)
    (hKey : key ∈ textKeys path node) :
    ∃ step, SheetStep node step key.default ∧
      key.steps = path.steps ++ ["sheets", node.identifierText, step] := by
  have hSheet : Text.split '.' ("sheets." ++ node.identifierText) =
      ["sheets", node.identifierText] :=
    Text.split_word_append_of_dotless "sheets" "sheets." (by decide) (by decide) hStep
  unfold textKeys LanguagePath.entry? at hKey
  simp only [List.mem_cons, List.mem_append, Option.mem_toList,
    Option.map_eq_some_iff] at hKey
  rcases hKey with rfl | ⟨text, hText, rfl⟩ | ⟨text, hText, rfl⟩
  · refine ⟨_, .label, ?_⟩
    rw [LanguagePath.steps_entry_append_word "label" ".label" (by decide) (by decide), hSheet]
    rfl
  · refine ⟨_, .description hText, ?_⟩
    rw [LanguagePath.steps_entry_append_word "description" ".description" (by decide)
      (by decide), hSheet]
    rfl
  · refine ⟨_, .linkTitle hText, ?_⟩
    rw [LanguagePath.steps_entry_append_word "linkTitle" ".linkTitle" (by decide)
      (by decide), hSheet]
    rfl

/-- Every key of a leaf lies at the end of a way of the form. -/
theorem exists_elementWay {leaf : FieldNode} (hLeaf : leaf ∈ leaves nodes)
    (hStep : Text.Dotless leaf.identifierText)
    (hContainers : FieldNode.DotlessAll leaf.container)
    (hKey : key ∈ elementKeys context path leaf) :
    ∃ way, FormWay context nodes way key.default ∧ key.steps = path.steps ++ way := by
  unfold elementKeys at hKey
  split at hKey
  case isTrue hSection =>
    obtain ⟨way, hWay, hSteps⟩ := exists_sectionWay hStep hContainers hKey
    exact ⟨_, .inSection hLeaf hSection hWay, hSteps⟩
  case isFalse hField =>
    obtain ⟨type, way, hType, hWay, hSteps⟩ := exists_leafWay hStep hKey
    exact ⟨_, .leaf hLeaf (by simpa using hField) hType hWay, hSteps⟩

/-- Every key of a form lies at the end of one of its ways. -/
theorem exists_formWay (hForm : WellFormed context nodes) (hDotless : FieldNode.DotlessAll nodes)
    (hKey : key ∈ formKeys context path nodes) :
    ∃ way, FormWay context nodes way key.default ∧ key.steps = path.steps ++ way := by
  unfold formKeys at hKey
  split at hKey
  case isTrue hPlain =>
    obtain ⟨leaf, hLeaf, hKey⟩ := List.mem_flatMap.mp hKey
    have hListed : leaf ∈ leaves nodes := by
      rw [leaves_of_plain (by simpa using hPlain)]
      exact hLeaf
    exact exists_elementWay hListed (hDotless.identifierText hLeaf) (hDotless.container hLeaf) hKey
  case isFalse hSheets =>
    -- Not all nodes are leaves, so all of them are sheets.
    have hAll : ∀ node ∈ nodes, node.hasType sheetType = true := by
      rcases hForm.layout with hPlain | hAll
      · exact absurd (by simpa using hPlain) hSheets
      · exact hAll
    obtain ⟨sheet, hSheet, hKey⟩ := List.mem_flatMap.mp hKey
    have hStep := hDotless.identifierText hSheet
    rcases List.mem_append.mp hKey with hText | hElement
    · obtain ⟨step, hWay, hSteps⟩ := exists_sheetStep hStep hText
      exact ⟨_, .sheet hSheet (hAll sheet hSheet) hWay, hSteps⟩
    · obtain ⟨leaf, hLeaf, hKey⟩ := List.mem_flatMap.mp hElement
      have hInner := hDotless.fields hSheet
      have hListed : leaf ∈ leaves nodes := by
        rw [leaves_of_sheets hAll]
        exact List.mem_flatMap.mpr ⟨sheet, hSheet, hLeaf⟩
      exact exists_elementWay hListed (hInner.identifierText hLeaf) (hInner.container hLeaf) hKey

/-! ## One text for each way -/

/-- Nothing in the form lies where something else does. -/
@[mk_iff]
structure Unambiguous (context : PassContext) (nodes : List FieldNode) : Prop where
  /-- Beside a section with the name under which items are kept, no leaf has the one
  under which sections are. -/
  sections : ∀ inSection ∈ leaves nodes, inSection.hasType sectionType = true →
    inSection.identifierText = "items" →
      ∀ leaf ∈ leaves nodes, leaf.hasType sectionType = false → leaf.identifierText ≠ "sections"
  leaves : ∀ leaf ∈ leaves nodes, leaf.hasType sectionType = false →
    ∀ type ∈ context.typeOf? leaf, leaf.ItemsAgree type
  containers : ∀ inSection ∈ FlexForm.leaves nodes, inSection.hasType sectionType = true →
    ∀ container ∈ inSection.container, ∀ field ∈ container.fields,
      ∀ type ∈ context.typeOf? field, field.ItemsAgree type

instance (context : PassContext) (nodes : List FieldNode) :
    Decidable (Unambiguous context nodes) :=
  decidable_of_iff' _ (unambiguous_iff context nodes)

variable {way other : List String} {text text' : String}

theorem ContainerWay.text_eq (hFields : (node.fields.map FieldNode.identifierText).Nodup)
    (hItems : ∀ field ∈ node.fields, ∀ type ∈ context.typeOf? field, field.ItemsAgree type)
    (hFirst : ContainerWay context node way text) (hSecond : ContainerWay context node other text')
    (hSame : way = other) : text = text' := by
  cases hFirst with
  | title =>
      cases hSecond with
      | title => rfl
      | field hField hType inner =>
          exact absurd (List.cons.inj hSame).2.symm inner.ne_nil
  | field hField hType inner =>
      cases hSecond with
      | title =>
          exact absurd (List.cons.inj hSame).2 inner.ne_nil
      | field hField' hType' inner' =>
          obtain ⟨hName, hRest⟩ := List.cons.inj hSame
          obtain rfl := List.inj_on_of_nodup_map hFields hField hField' hName
          obtain rfl := Option.some.inj (hType.symm.trans hType')
          exact inner.text_eq (hItems _ hField _ hType) inner' hRest

theorem SectionWay.text_eq (hSection : AdmitsSection context node)
    (hItems : ∀ container ∈ node.container, ∀ field ∈ container.fields,
      ∀ type ∈ context.typeOf? field, field.ItemsAgree type)
    (hFirst : SectionWay context node way text) (hSecond : SectionWay context node other text')
    (hSame : way = other) : text = text' := by
  cases hFirst with
  | title =>
      cases hSecond with
      | title => rfl
      | container hContainer inner => simp at hSame
  | container hContainer inner =>
      cases hSecond with
      | title => simp at hSame
      | container hContainer' inner' =>
          obtain ⟨hName, hRest⟩ := List.cons.inj (List.cons.inj hSame).2
          obtain rfl := List.inj_on_of_nodup_map hSection.distinct hContainer hContainer' hName
          exact inner.text_eq (hSection.containers _ hContainer).distinct (hItems _ hContainer)
            inner' hRest

theorem SheetStep.text_eq {step last : String} (hFirst : SheetStep node step text)
    (hSecond : SheetStep node last text') (hSame : step = last) : text = text' := by
  cases hFirst with
  | label =>
      cases hSecond with
      | label => rfl
      | description hText => simp at hSame
      | linkTitle hText => simp at hSame
  | description hText =>
      cases hSecond with
      | label => simp at hSame
      | description hText' => exact Option.some.inj (hText.symm.trans hText')
      | linkTitle hText' => simp at hSame
  | linkTitle hText =>
      cases hSecond with
      | label => simp at hSame
      | description hText' => simp at hSame
      | linkTitle hText' => exact Option.some.inj (hText.symm.trans hText')

/-- A way of a form has two steps or more. -/
theorem FormWay.exists_cons (hWay : FormWay context nodes way text) :
    ∃ step rest, way = step :: rest ∧ rest ≠ [] := by
  cases hWay with
  | sheet hSheet hType inner => exact ⟨_, _, rfl, by simp⟩
  | inSection hLeaf hSection inner => exact ⟨_, _, rfl, by simp⟩
  | leaf hLeaf hField hType inner => exact ⟨_, _, rfl, inner.ne_nil⟩

/-- Below the name of items lie only texts of a leaf of that name. -/
theorem FormWay.of_items {rest : List String} (hWay : FormWay context nodes way text)
    (hSame : way = "items" :: rest) : ∃ leaf ∈ leaves nodes, leaf.identifierText = "items" := by
  cases hWay with
  | sheet hSheet hType inner => simp at hSame
  | inSection hLeaf hSection inner => simp at hSame
  | leaf hLeaf hField hType inner => exact ⟨_, hLeaf, (List.cons.inj hSame).1⟩

/-- A form without nodes has no texts. -/
theorem FormWay.nodes_ne_nil (hWay : FormWay context nodes way text) : nodes ≠ [] := by
  rintro rfl
  cases hWay <;> contradiction

/-- A text of a leaf does not lie among those of the sheets. -/
theorem sheet_ne_leafWay {sheet step : String} {type : TypeDescriptor}
    (hWay : LabelWay node type way text) :
    ["sheets", sheet, step] ≠ node.identifierText :: way := by
  intro hSame
  exact hWay.ne_pair (List.cons.inj hSame).2.symm

/-- A text of a leaf lies among those of a section only if it is that of an item. -/
theorem inSectionne_leafWay {inSection : FieldNode} {type : TypeDescriptor}
    (hSection : SectionWay context inSection way text) (hWay : LabelWay node type other text')
    (hNames : inSection.identifierText = "items" → node.identifierText ≠ "sections") :
    "sections" :: inSection.identifierText :: way ≠ node.identifierText :: other := by
  intro hSame
  obtain ⟨hName, hRest⟩ := List.cons.inj hSame
  have hSome : way ≠ [] := by
    cases hSection <;> simp
  exact hNames (hWay.of_cons hRest.symm hSome).1 hName.symm

/-- One way of a form leads to one text. -/
theorem FormWay.text_eq (hForm : WellFormed context nodes) (hClear : Unambiguous context nodes)
    (hFirst : FormWay context nodes way text) (hSecond : FormWay context nodes other text')
    (hSame : way = other) : text = text' := by
  cases hFirst with
  | sheet hSheet hType inner =>
      cases hSecond with
      | sheet hSheet' hType' inner' =>
          obtain ⟨hName, hRest⟩ := List.cons.inj (List.cons.inj hSame).2
          obtain rfl := List.inj_on_of_nodup_map hForm.distinctSheets
            (List.mem_filter.mpr ⟨hSheet, hType⟩) (List.mem_filter.mpr ⟨hSheet', hType'⟩) hName
          exact inner.text_eq inner' (List.cons.inj hRest).1
      | inSection hLeaf hSection inner' => simp at hSame
      | leaf hLeaf hField hType' inner' => exact absurd hSame (sheet_ne_leafWay inner')
  | inSection hLeaf hSection inner =>
      cases hSecond with
      | sheet hSheet hType inner' => simp at hSame
      | inSection hLeaf' hSection' inner' =>
          obtain ⟨hName, hRest⟩ := List.cons.inj (List.cons.inj hSame).2
          obtain rfl := List.inj_on_of_nodup_map hForm.distinctLeaves hLeaf hLeaf' hName
          exact inner.text_eq ((admitsLeaf_of_section hSection).mp (hForm.leaves _ hLeaf))
            (hClear.containers _ hLeaf hSection) inner' hRest
      | leaf hLeaf' hField hType inner' =>
          exact absurd hSame (inSectionne_leafWay inner inner' fun hItems =>
            hClear.sections _ hLeaf hSection hItems _ hLeaf' hField)
  | leaf hLeaf hField hType inner =>
      cases hSecond with
      | sheet hSheet hType' inner' => exact absurd hSame.symm (sheet_ne_leafWay inner)
      | inSection hLeaf' hSection inner' =>
          exact absurd hSame.symm (inSectionne_leafWay inner' inner fun hItems =>
            hClear.sections _ hLeaf' hSection hItems _ hLeaf hField)
      | leaf hLeaf' hField' hType' inner' =>
          obtain ⟨hName, hRest⟩ := List.cons.inj hSame
          obtain rfl := List.inj_on_of_nodup_map hForm.distinctLeaves hLeaf hLeaf' hName
          obtain rfl := Option.some.inj (hType.symm.trans hType')
          exact inner.text_eq (hClear.leaves _ hLeaf hField _ hType) inner' hRest

end FlexForm
end ContentSchema
