import ContentSchema.Proofs.Entries.Writes
import ContentSchema.Proofs.FlexForm.Keys
import ContentSchema.Proofs.FlexForm.Positions

/-!
# Translated texts of nested forms

What a compiled object shows instead of a text is the path of a language key.
Such a path is of use only if a key with that path is registered, and with the
text as its default.  Here this is said of every place of a nested form.

* `Translated` says that a path leads to a text among some keys.
* `ShownUnder` says it of what stands under one name of an object.
* `FlexForm.Translates` says it of a whole data structure: sheets, sections,
  containers, fields and items, at every depth.
* `FlexForm.translates_formValue` says that the keys of a form are enough.

Each list of the data structure is matched with the authored nodes one by one, so
nothing in it is left out.  A field without form presence shows a path for its
label all the same; that one does NOT have to be registered.
-/

namespace ContentSchema

/-- The path is that of one of the keys, which has the text as its default. -/
def Translated (keys : List LanguageKey) (path text : String) : Prop :=
  ∃ key ∈ keys, key.path = path ∧ key.default = text

/-- What the object shows under the name is the path of a key for the text, and
nothing if there is no text. -/
def ShownUnder (keys : List LanguageKey) (entries : Entries Value) (name : String)
    (text? : Option String) : Prop :=
  ∃ path?, entries.lookup name = path?.map Value.string ∧
    Option.Rel (Translated keys) path? text?

section Texts

variable {keys : List LanguageKey} {path : LanguagePath} {suffix text : String}

theorem translated_pathFor (hKey : path.entry suffix text ∈ keys) :
    Translated keys (path.pathFor suffix) text :=
  ⟨path.entry suffix text, hKey, rfl, rfl⟩

theorem rel_translated_map {text? : Option String} (hKeys : path.entry? suffix text? ⊆ keys) :
    Option.Rel (Translated keys) (text?.map fun _ => path.pathFor suffix) text? := by
  cases text? with
  | none => exact .none
  | some text => exact .some (translated_pathFor (hKeys List.mem_cons_self))

theorem shownUnder_some {entries : Entries Value} {name : String}
    (hShown : entries.lookup name = some (.string (path.pathFor suffix)))
    (hKey : path.entry suffix text ∈ keys) : ShownUnder keys entries name (some text) :=
  ⟨some (path.pathFor suffix), hShown, .some (translated_pathFor hKey)⟩

theorem shownUnder_map {entries : Entries Value} {name : String} {text? : Option String}
    (hShown : entries.lookup name =
      (text?.map fun _ => path.pathFor suffix).map Value.string)
    (hKeys : path.entry? suffix text? ⊆ keys) : ShownUnder keys entries name text? :=
  ⟨_, hShown, rel_translated_map hKeys⟩

end Texts

/-! ## Items -/

/-- An item with a label shows it. -/
def FieldItem.Translates (keys : List LanguageKey) (item : FieldItem) (value : Value) : Prop :=
  ∃ entries, value = .object entries ∧
    ∀ label, item.label = some label → ShownUnder keys entries "labelPath" (some label)

/-- A configuration shows the labels of the items of a field, if its type has
items and there are any. -/
def FieldNode.TranslatesItems (keys : List LanguageKey) (node : FieldNode)
    (type : TypeDescriptor) (config : Entries Value) : Prop :=
  type.items ≠ .none → node.items ≠ [] →
    ∃ values, config.lookup "items" = some (.list values) ∧
      List.Forall₂ (FieldItem.Translates keys) node.items values

namespace PassContext

variable {keys : List LanguageKey} {path : LanguagePath}

theorem translates_registeredItem {labels : ItemLabels} {index : Nat} {item : FieldItem}
    (hKeys : path.entry? ("items." ++ item.key labels index ++ ".label") item.label ⊆ keys) :
    item.Translates keys (registeredItem path labels index item) := by
  unfold registeredItem
  cases hLabel : item.label with
  | none => exact ⟨_, rfl, fun label hSome => absurd (hLabel.symm.trans hSome) (by simp)⟩
  | some text =>
      refine ⟨_, rfl, fun label hSome => ?_⟩
      obtain rfl := Option.some.inj (hLabel.symm.trans hSome)
      rw [hLabel] at hKeys
      exact shownUnder_some (Entries.lookup_insert_self _ _ _) (hKeys List.mem_cons_self)

theorem translates_registeredItems {labels : ItemLabels} {index : Nat} {items : List FieldItem}
    (hKeys : itemKeysFrom path labels index items ⊆ keys) :
    List.Forall₂ (FieldItem.Translates keys) items
      (items.mapIdx fun offset item => registeredItem path labels (index + offset) item) := by
  induction items generalizing index with
  | nil => exact .nil
  | cons item rest ih =>
      rw [itemKeysFrom, List.append_subset] at hKeys
      rw [List.mapIdx_cons]
      refine .cons (translates_registeredItem hKeys.1) ?_
      have hRest := ih hKeys.2
      simpa only [Nat.add_assoc, Nat.add_comm 1] using hRest

/-- The items of a field show their labels wherever they are written. -/
theorem translatesItems_of_lookup {node : FieldNode} {type : TypeDescriptor}
    {config : Entries Value} (hKeys : itemKeys path node type ⊆ keys)
    (hConfig : ∀ value, registeredItems path node type = some value →
      config.lookup "items" = some value) :
    node.TranslatesItems keys type config := by
  intro hType hItems
  have hMade : registeredItems path node type =
      some (.list (node.items.mapIdx fun index item =>
        registeredItem path type.items index item)) := by
    rw [registeredItems, if_neg (by simp [hType, hItems])]
  refine ⟨_, hConfig _ hMade, ?_⟩
  rw [itemKeys, if_neg hType] at hKeys
  have hAll := translates_registeredItems hKeys
  simpa only [Nat.zero_add] using hAll

end PassContext

namespace FlexForm

/-! ## Data structures -/

/-- The entries of a field of a form show its texts. -/
structure FieldTranslates (keys : List LanguageKey) (node : FieldNode) (type : TypeDescriptor)
    (entries : Entries Value) : Prop where
  label : type.storage ≠ .passthrough →
    ShownUnder keys entries "label" (some (node.label.getD node.identifierText))
  description : type.storage ≠ .passthrough →
    ShownUnder keys entries "description" node.description
  items : ∃ config, entries.lookup "config" = some (.object config) ∧
    node.TranslatesItems keys type config

/-- The element of a field of a form shows its texts. -/
def TranslatesField (context : PassContext) (keys : List LanguageKey) (node : FieldNode)
    (element : String × Value) : Prop :=
  ∃ type entries, context.typeOf? node = some type ∧
    element = (node.identifierText, .object entries) ∧ FieldTranslates keys node type entries

/-- The element of a container shows its title and the texts of its fields. -/
def TranslatesContainer (context : PassContext) (keys : List LanguageKey) (node : FieldNode)
    (element : String × Value) : Prop :=
  ∃ entries elements, element = (node.identifierText, .object entries) ∧
    ShownUnder keys entries "title" (some (node.label.getD node.identifierText)) ∧
    entries.lookup "el" = some (.object elements) ∧
    List.Forall₂ (TranslatesField context keys) node.fields elements

/-- The element of a section shows its title and the texts of its containers. -/
def TranslatesSection (context : PassContext) (keys : List LanguageKey) (node : FieldNode)
    (element : String × Value) : Prop :=
  ∃ entries elements, element = (node.identifierText, .object entries) ∧
    ShownUnder keys entries "title" (some (node.label.getD node.identifierText)) ∧
    entries.lookup "el" = some (.object elements) ∧
    List.Forall₂ (TranslatesContainer context keys) node.container elements

/-- The element of a leaf of a sheet shows its texts. -/
def TranslatesLeaf (context : PassContext) (keys : List LanguageKey) (node : FieldNode)
    (element : String × Value) : Prop :=
  if node.hasType sectionType = true then TranslatesSection context keys node element
  else TranslatesField context keys node element

/-- What is kept of a sheet shows these texts of its own and those of its leaves. -/
def TranslatesRoot (context : PassContext) (keys : List LanguageKey)
    (title description linkTitle : Option String) (leaves : List FieldNode) (value : Value) :
    Prop :=
  ∃ entries elements, value = .object [("ROOT", .object entries)] ∧
    ShownUnder keys entries "sheetTitle" title ∧
    ShownUnder keys entries "sheetDescription" description ∧
    ShownUnder keys entries "sheetShortDescr" linkTitle ∧
    entries.lookup "el" = some (.object elements) ∧
    List.Forall₂ (TranslatesLeaf context keys) leaves elements

/-- The sheet shows its texts and those of its leaves. -/
def TranslatesSheet (context : PassContext) (keys : List LanguageKey) (node : FieldNode)
    (element : String × Value) : Prop :=
  element.1 = node.identifierText ∧
    TranslatesRoot context keys (some (node.label.getD node.identifierText)) node.description
      node.linkTitle node.fields element.2

/-- The data structure of a form shows the texts of its nodes.  Leaves without a
sheet stand in one that shows nothing of its own. -/
def Translates (context : PassContext) (keys : List LanguageKey) (nodes : List FieldNode)
    (value : Value) : Prop :=
  ∃ sheets, value = .object [(structureKey context, .object [("sheets", .object sheets)])] ∧
    if nodes.all fun node => !node.hasType sheetType then
      ∃ sheet, sheets = [(defaultSheet, sheet)] ∧
        TranslatesRoot context keys none none none nodes sheet
    else List.Forall₂ (TranslatesSheet context keys) nodes sheets

/-! ## Expansion, level by level -/

variable {context : PassContext} {keys : List LanguageKey} {path : LanguagePath}

/-- Elements made of nodes one by one show the texts of the nodes. -/
theorem forall₂_map_of_flatMap_subset {keysOf : FieldNode → List LanguageKey}
    {element : FieldNode → String × Value} {Shows : FieldNode → String × Value → Prop}
    {nodes : List FieldNode}
    (hEach : ∀ node ∈ nodes, keysOf node ⊆ keys → Shows node (element node))
    (hKeys : nodes.flatMap keysOf ⊆ keys) : List.Forall₂ Shows nodes (nodes.map element) := by
  rw [List.forall₂_map_right_iff, List.forall₂_same]
  intro node hNode
  have hBelow : keysOf node ⊆ keys := fun key hKey =>
    hKeys (List.mem_flatMap.mpr ⟨node, hNode, hKey⟩)
  exact hEach node hNode hBelow

theorem labelKeys_subset_iff {node : FieldNode} {type : TypeDescriptor}
    (hShown : type.storage ≠ .passthrough) :
    PassContext.labelKeys path node type ⊆ keys ↔
      path.entry "label" (node.label.getD node.identifierText) ∈ keys ∧
        path.entry? "description" node.description ⊆ keys := by
  rw [PassContext.labelKeys, if_neg hShown, List.cons_subset]

/-- A field of a form shows its texts. -/
theorem fieldTranslates_elementOf {node : FieldNode} {type : TypeDescriptor}
    (hLabels : PassContext.labelKeys (path.push node.identifierText) node type ⊆ keys)
    (hItems : PassContext.itemKeys (path.push node.identifierText) node type ⊆ keys) :
    ∃ entries, elementOf path node type = .object entries ∧
      FieldTranslates keys node type entries := by
  refine ⟨_, rfl, ?_, ?_, ?_⟩
  · intro hShown
    obtain ⟨hLabel, _⟩ := (labelKeys_subset_iff hShown).mp hLabels
    exact shownUnder_some rfl hLabel
  · intro hShown
    obtain ⟨_, hDescription⟩ := (labelKeys_subset_iff hShown).mp hLabels
    refine shownUnder_map ?_ hDescription
    rw [PassContext.describedPath?, if_neg hShown]
    cases node.description <;> cases node.displayCond <;> rfl
  · let config := Entries.insertAll node.config (Value.entry? "items"
      (PassContext.registeredItems (path.push node.identifierText) node type))
    refine ⟨config, ?_, PassContext.translatesItems_of_lookup hItems ?_⟩
    · cases PassContext.describedPath? (path.push node.identifierText) node type <;>
        cases node.displayCond <;> rfl
    · intro value hValue
      show (Entries.insertAll _ (Value.entry? "items" _)).lookup "items" = some value
      rw [hValue]
      exact Entries.lookup_insert_self _ _ _

theorem translatesField_fieldElement {place : Place} {node : FieldNode}
    (hNode : AdmitsField context place node) (hKeys : leafKeys context path node ⊆ keys) :
    TranslatesField context keys node (fieldElement context path node) := by
  obtain ⟨_, type, hType, _⟩ := hNode
  unfold leafKeys at hKeys
  rw [hType] at hKeys
  obtain ⟨hLabels, hItems⟩ := List.append_subset.mp hKeys
  obtain ⟨entries, hElement, hTranslates⟩ := fieldTranslates_elementOf hLabels hItems
  refine ⟨type, entries, hType, ?_, hTranslates⟩
  rw [fieldElement, hType, ← hElement]
  rfl

theorem translatesContainer_containerElement {key : String} {node : FieldNode}
    (hNode : AdmitsContainer context node) (hKeys : containerKeys context path key node ⊆ keys) :
    TranslatesContainer context keys node (containerElement context path key node) := by
  obtain ⟨hTitle, hFields⟩ := List.cons_subset.mp hKeys
  exact ⟨_, _, rfl, shownUnder_some rfl hTitle, rfl,
    forall₂_map_of_flatMap_subset
      (fun field hField => translatesField_fieldElement (hNode.fields field hField)) hFields⟩

theorem translatesSection_sectionValue {node : FieldNode} (hNode : AdmitsSection context node)
    (hKeys : sectionKeys context path node ⊆ keys) :
    TranslatesSection context keys node (node.identifierText, sectionValue context path node) := by
  obtain ⟨hTitle, hContainers⟩ := List.cons_subset.mp hKeys
  exact ⟨_, _, rfl, shownUnder_some rfl hTitle, rfl,
    forall₂_map_of_flatMap_subset
      (fun container hContainer =>
        translatesContainer_containerElement (hNode.containers container hContainer)) hContainers⟩

theorem translatesLeaf_leafElement {node : FieldNode} (hNode : AdmitsLeaf context node)
    (hKeys : elementKeys context path node ⊆ keys) :
    TranslatesLeaf context keys node (leafElement context path node) := by
  unfold AdmitsLeaf at hNode
  unfold elementKeys at hKeys
  unfold TranslatesLeaf leafElement
  by_cases hSection : node.hasType sectionType = true
  · rw [if_pos hSection] at hNode hKeys ⊢
    rw [if_pos hSection]
    exact translatesSection_sectionValue hNode hKeys
  · rw [if_neg hSection] at hNode hKeys ⊢
    rw [if_neg hSection]
    exact translatesField_fieldElement hNode hKeys

/-- A sheet with an identifier shows its texts and those of its leaves. -/
theorem translatesSheet_sheetElement {sheet : FieldNode}
    (hLeaves : ∀ leaf ∈ sheet.fields, AdmitsLeaf context leaf)
    (hKeys : sheetKeys context path sheet ⊆ keys) :
    TranslatesSheet context keys sheet (sheetElement context path sheet) := by
  obtain ⟨hTexts, hFields⟩ := List.append_subset.mp hKeys
  obtain ⟨hTitle, hMore⟩ := List.cons_subset.mp hTexts
  obtain ⟨hDescription, hLinkTitle⟩ := List.append_subset.mp hMore
  refine ⟨rfl, _, _, rfl, shownUnder_some rfl hTitle, shownUnder_map ?_ hDescription,
    shownUnder_map ?_ hLinkTitle, lookup_el_textsOf sheet _,
    forall₂_map_of_flatMap_subset
      (fun leaf hLeaf => translatesLeaf_leafElement (hLeaves leaf hLeaf)) hFields⟩
  · unfold textsOf
    cases sheet.description <;> cases sheet.linkTitle <;> rfl
  · unfold textsOf
    cases sheet.description <;> cases sheet.linkTitle <;> rfl

/-- The data structure of a well-formed form shows the texts of its nodes, once
its keys are registered. -/
theorem translates_formValue {nodes : List FieldNode} (hForm : WellFormed context nodes)
    (hKeys : formKeys context path nodes ⊆ keys) :
    Translates context keys nodes (formValue context path nodes) := by
  refine ⟨_, rfl, ?_⟩
  unfold formKeys at hKeys
  by_cases hPlain : (nodes.all fun node => !node.hasType sheetType) = true
  · rw [if_pos hPlain] at hKeys ⊢
    obtain ⟨hLeaves, _⟩ := (wellFormed_of_plain (by simpa using hPlain)).mp hForm
    rw [if_pos hPlain]
    exact ⟨_, rfl, _, _, rfl, ⟨none, rfl, .none⟩, ⟨none, rfl, .none⟩, ⟨none, rfl, .none⟩, rfl,
      forall₂_map_of_flatMap_subset
        (fun leaf hLeaf => translatesLeaf_leafElement (hLeaves leaf hLeaf)) hKeys⟩
  · rw [if_neg hPlain] at hKeys ⊢
    have hSheets := hForm.sheets_of_not_plain hPlain
    obtain ⟨_, _, hLeaves, _⟩ := (wellFormed_of_sheets hSheets).mp hForm
    rw [if_neg hPlain]
    exact forall₂_map_of_flatMap_subset (fun sheet hSheet => translatesSheet_sheetElement
      fun leaf hLeaf => hLeaves leaf (List.mem_flatMap.mpr ⟨sheet, hSheet, hLeaf⟩)) hKeys

end FlexForm
end ContentSchema
