import ContentSchema.Proofs.Datum.Records
import ContentSchema.Proofs.Definition.RoundTrip
import ContentSchema.Proofs.Document.FreeForm
import ContentSchema.Proofs.FlexForm.Positions
import ContentSchema.Proofs.Run.Configuration
import ContentSchema.Proofs.Value.Json

/-!
# Free-form parts of compiled fields

What the compiler makes of the free-form parts of a node is again what a JSON text can hold:
it writes objects of its own with different names, and writes into those of the node.

* `PassContext.heldJson_registeredItems` is about the items of a field.
* `FlexForm.isJson_formValue` is about the data structure of a form, level by level.
* `PassContext.isJson_config_compiledField` is about the configuration of the field that a node
  is compiled into.

The grammar of forms is needed here: a form that does NOT follow it could list one identifier
twice.
-/

namespace ContentSchema

variable {Admits : Value → Prop}

/-! ## Items -/

theorem FieldItem.isJson_compiled {item : FieldItem} (hItem : item.HoldsJson) :
    (Value.object item.compiled).IsJson := by
  refine Value.isJson_insertAll hItem.extra (List.forall_mem_append.mpr ⟨?_, ?_⟩)
  · exact Value.isJson_of_mem_entry? (Value.heldJson_text item.label)
  · exact Value.isJson_of_mem_entry? hItem.value

namespace PassContext

variable {path : LanguagePath} {node : FieldNode} {type : TypeDescriptor}

theorem isJson_registeredItem {labels : ItemLabels} {index : Nat} {item : FieldItem}
    (hItem : item.HoldsJson) : (registeredItem path labels index item).IsJson := by
  unfold registeredItem
  split
  · exact FieldItem.isJson_compiled hItem
  · exact Value.isJson_insert (FieldItem.isJson_compiled hItem) (Value.isJson_string _)

/-- A JSON text can hold the items of a field as compiled. -/
theorem heldJson_registeredItems (hItems : ∀ item ∈ node.items, item.HoldsJson) :
    Value.HeldJson (registeredItems path node type) := by
  unfold registeredItems
  split
  · exact nofun
  · refine Value.heldJson_some (Value.isJson_list_iff.mpr fun v hMem => ?_)
    obtain ⟨index, hIndex, rfl⟩ := List.mem_mapIdx.mp hMem
    exact isJson_registeredItem (hItems _ (List.getElem_mem hIndex))

end PassContext

/-! ## Forms -/

namespace FlexForm

open PassContext (describedPath? registeredItems)

variable {context : PassContext} {path : LanguagePath} {node : FieldNode} {nodes : List FieldNode}

/-- Elements under different identifiers make up an object. -/
theorem isJson_elements {element : FieldNode → String × Value}
    (hName : ∀ node, (element node).1 = node.identifierText)
    (hNodup : (nodes.map FieldNode.identifierText).Nodup)
    (hNodes : ∀ node ∈ nodes, (element node).2.IsJson) :
    (Value.object (nodes.map element)).IsJson := by
  refine Value.isJson_object_iff.mpr ⟨?_, List.forall_mem_map.mpr hNodes⟩
  rw [Entries.Distinct, Entries.keys, List.map_map]
  exact (List.map_congr_left fun node _ => hName node) ▸ hNodup

/-- The parts of the element of a field by name, each with its value if it has one. -/
def elementSlots (path : LanguagePath) (node : FieldNode) (type : TypeDescriptor) :
    List (String × Option Value) :=
  let position := path.push node.identifierText
  [("label", some (.string (position.pathFor "label"))),
    ("description", (describedPath? position node type).map Value.string),
    ("type", some (.string type.name)),
    ("displayCond", node.displayCond),
    ("config", some (.object (Entries.insertAll node.config
      (Value.entry? "items" (registeredItems position node type)))))]

theorem tabulates_elementSlots (path : LanguagePath) (node : FieldNode) (type : TypeDescriptor) :
    Datum.Tabulates ["label", "description", "type", "displayCond", "config"]
      (elementSlots path node type) :=
  ⟨rfl, by decide⟩

theorem elementOf_eq (path : LanguagePath) (node : FieldNode) (type : TypeDescriptor) :
    elementOf path node type = .object (Entries.present (elementSlots path node type)) := by
  simp only [elementOf, elementSlots, Value.textEntry?, Value.present_cons, Entries.present_nil,
    List.append_assoc, List.cons_append, List.nil_append, List.append_nil]
  rfl

theorem isJson_elementOf (hNode : node.HoldsJson Admits) (type : TypeDescriptor) :
    (elementOf path node type).IsJson := by
  have hConfig : (Value.object (Entries.insertAll node.config (Value.entry? "items"
      (registeredItems (path.push node.identifierText) node type)))).IsJson :=
    Value.isJson_insertAll hNode.attributes.config
      (Value.isJson_of_mem_entry? (PassContext.heldJson_registeredItems hNode.attributes.items))
  rw [elementOf_eq]
  refine (tabulates_elementSlots path node type).isJson ?_
  simp only [elementSlots, List.forall_mem_cons]
  exact ⟨Value.heldJson_string _, Value.heldJson_text _, Value.heldJson_string _,
    fun v hCond => (hNode.attributes.displayCond v hCond).1, Value.heldJson_some hConfig,
    List.forall_mem_nil _⟩

theorem isJson_fieldElement (hNode : node.HoldsJson Admits) :
    (fieldElement context path node).2.IsJson := by
  unfold fieldElement
  cases context.typeOf? node with
  | none => exact ⟨trivial, trivial⟩
  | some type => exact isJson_elementOf hNode type

theorem isJson_containerElement {key : String} (hAdmits : AdmitsContainer context node)
    (hNode : node.HoldsJson Admits) : (containerElement context path key node).2.IsJson := by
  let position := path.push (key ++ ".container." ++ node.identifierText)
  have hElements : (Value.object (node.fields.map (fieldElement context position))).IsJson :=
    isJson_elements (fun _ => rfl) hAdmits.distinct fun field hField =>
      isJson_fieldElement (hNode.fields field hField)
  refine Value.isJson_object_iff.mpr ⟨(by decide : ["title", "type", "el"].Nodup), ?_⟩
  simp only [List.forall_mem_cons]
  exact ⟨⟨trivial, trivial⟩, ⟨trivial, trivial⟩, hElements, List.forall_mem_nil _⟩

theorem isJson_sectionValue (hAdmits : AdmitsSection context node)
    (hNode : node.HoldsJson Admits) : (sectionValue context path node).IsJson := by
  let key := "sections." ++ node.identifierText
  have hElements : (Value.object
      (node.container.map (containerElement context path key))).IsJson :=
    isJson_elements (fun _ => rfl) hAdmits.distinct fun container hMem =>
      isJson_containerElement (hAdmits.containers container hMem) (hNode.container container hMem)
  refine Value.isJson_object_iff.mpr ⟨(by decide : ["title", "type", "section", "el"].Nodup), ?_⟩
  simp only [List.forall_mem_cons]
  exact ⟨⟨trivial, trivial⟩, ⟨trivial, trivial⟩, ⟨trivial, trivial⟩, hElements,
    List.forall_mem_nil _⟩

theorem isJson_leafElement (hAdmits : AdmitsLeaf context node) (hNode : node.HoldsJson Admits) :
    (leafElement context path node).2.IsJson := by
  unfold leafElement
  split
  case isTrue hSection =>
    exact isJson_sectionValue ((admitsLeaf_of_section hSection).mp hAdmits) hNode
  case isFalse => exact isJson_fieldElement hNode

/-- A sheet is an object when its texts and its elements are. -/
theorem isJson_sheetValue {known : List String} {texts : List (String × Option Value)}
    {elements : List (String × Value)}
    (hTexts : Datum.Tabulates known
      (texts ++ [("type", some (.string "array")), ("el", some (.object elements))]))
    (hJson : ∀ slot ∈ texts, Value.HeldJson slot.2) (hElements : (Value.object elements).IsJson) :
    (sheetValue (Entries.present texts) elements).IsJson := by
  have hRoot := hTexts.isJson (List.forall_mem_append.mpr ⟨hJson, by
    simp only [List.forall_mem_cons]
    exact ⟨Value.heldJson_string _, Value.heldJson_some hElements, List.forall_mem_nil _⟩⟩)
  rw [Entries.present_append] at hRoot
  exact Value.isJson_singleton hRoot

/-- The texts that a sheet shows by name, each with its value if it has one. -/
def textSlots (path : LanguagePath) (sheet : FieldNode) : List (String × Option Value) :=
  let key := "sheets." ++ sheet.identifierText
  [("sheetTitle", some (.string (path.pathFor (key ++ ".label")))),
    ("sheetDescription",
      (sheet.description.map fun _ => path.pathFor (key ++ ".description")).map Value.string),
    ("sheetShortDescr",
      (sheet.linkTitle.map fun _ => path.pathFor (key ++ ".linkTitle")).map Value.string)]

theorem textsOf_eq (path : LanguagePath) (sheet : FieldNode) :
    textsOf path sheet = Entries.present (textSlots path sheet) := by
  simp only [textsOf, textSlots, Value.textEntry?, Value.present_cons, Entries.present_nil,
    List.cons_append, List.nil_append, List.append_nil]
  rfl

theorem isJson_sheetElement {sheet : FieldNode}
    (hElements : (Value.object (sheet.fields.map (leafElement context path))).IsJson) :
    (sheetElement context path sheet).2.IsJson := by
  have hTable : Datum.Tabulates ["sheetTitle", "sheetDescription", "sheetShortDescr", "type", "el"]
      (textSlots path sheet ++ [("type", some (.string "array")),
        ("el", some (.object (sheet.fields.map (leafElement context path))))]) :=
    ⟨rfl, by decide⟩
  rw [sheetElement, textsOf_eq]
  refine isJson_sheetValue hTable ?_ hElements
  simp only [textSlots, List.forall_mem_cons]
  exact ⟨Value.heldJson_string _, Value.heldJson_text _, Value.heldJson_text _,
    List.forall_mem_nil _⟩

/-- A JSON text can hold the data structure of a form that follows the grammar. -/
theorem isJson_formValue (hForm : WellFormed context nodes)
    (hNodes : ∀ node ∈ nodes, node.HoldsJson Admits) : (formValue context path nodes).IsJson := by
  have hStructure {sheets : List (String × Value)} (hSheets : (Value.object sheets).IsJson) :
      (expand.structureOf context sheets).IsJson :=
    Value.isJson_singleton (Value.isJson_singleton hSheets)
  -- The leaves of any sheet are admitted under different identifiers.
  have hLeaves {sheet : String} {leaves : List FieldNode}
      (hSheet : (sheet, leaves) ∈ sheetsOf nodes)
      (hHeld : ∀ leaf ∈ leaves, leaf.HoldsJson Admits) :
      (Value.object (leaves.map (leafElement context path))).IsJson := by
    obtain ⟨hAdmits, hNodup⟩ := hForm.of_mem_sheetsOf hSheet
    exact isJson_elements leafElement_fst hNodup fun leaf hLeaf =>
      isJson_leafElement (hAdmits leaf hLeaf) (hHeld leaf hLeaf)
  unfold formValue
  by_cases hPlain : (nodes.all fun node => !node.hasType sheetType) = true
  · have hOnly : (defaultSheet, nodes) ∈ sheetsOf nodes := by simp [sheetsOf, hPlain]
    rw [if_pos hPlain]
    refine hStructure (Value.isJson_singleton ?_)
    exact @isJson_sheetValue ["type", "el"] [] _ ⟨rfl, by decide⟩ nofun (hLeaves hOnly hNodes)
  · rw [if_neg hPlain]
    refine hStructure (isJson_elements (fun _ => rfl) (hForm.distinctSheets_of_not_plain hPlain)
      fun sheet hSheet => isJson_sheetElement ?_)
    refine hLeaves (?_ : (sheet.identifierText, sheet.fields) ∈ sheetsOf nodes)
      (hNodes sheet hSheet).fields
    simpa [sheetsOf, hPlain] using ⟨sheet, hSheet, rfl, rfl⟩

end FlexForm

/-! ## Compiled fields -/

namespace PassContext

variable {context : PassContext} {path : LanguagePath} {node : FieldNode} {type : TypeDescriptor}
  {unique : String}

theorem isJson_linkConfig (node : FieldNode) (table unique : String) :
    ∀ entry ∈ linkConfig node table unique, entry.2.IsJson := by
  have hMatch : (Value.object [("fieldname", .string unique)]).IsJson :=
    Value.isJson_singleton (Value.isJson_string unique)
  unfold linkConfig
  cases node.shareAcrossTables <;> cases node.shareAcrossFields <;>
    simp [hMatch, Value.isJson_string]

/-- A JSON text can hold what the compiler writes into the configuration of a field. -/
theorem isJson_writtenConfig
    (hForm : type.kind = .flexForm → FlexForm.WellFormed context node.fields)
    (hNode : node.HoldsJson Admits) :
    ∀ entry ∈ context.writtenConfig path type node unique, entry.2.IsJson := by
  let position := path.push node.identifierText
  have hStructure : Value.HeldJson (context.structure? position type node) := by
    unfold structure?
    split
    case isTrue hKind =>
      exact Value.heldJson_some (FlexForm.isJson_formValue (hForm hKind) hNode.fields)
    case isFalse => exact nofun
  refine List.forall_mem_append.mpr ⟨List.forall_mem_append.mpr ⟨?_, ?_⟩, ?_⟩
  · exact Value.isJson_of_mem_entry? hStructure
  · exact Value.isJson_of_mem_entry? (heldJson_registeredItems hNode.attributes.items)
  · split
    · exact isJson_linkConfig _ _ _
    · exact nofun

/-- A JSON text can hold the configuration of a field as compiled. -/
theorem isJson_config_compiledField
    (hForm : type.kind = .flexForm → FlexForm.WellFormed context node.fields)
    (hNode : node.HoldsJson Admits) :
    (Value.object (context.compiledField path type node unique).config).IsJson := by
  obtain ⟨hDistinct, hValues⟩ := Value.isJson_object_iff.mp hNode.attributes.config
  have hCarried : (Value.object (carriedConfig node type)).IsJson :=
    Value.isJson_object_iff.mpr ⟨hDistinct.sublist (List.filter_sublist.map Prod.fst),
      fun entry hEntry => hValues entry (List.mem_filter.mp hEntry).1⟩
  rw [config_compiledField]
  exact Value.isJson_insertAll hCarried (isJson_writtenConfig hForm hNode)

end PassContext
end ContentSchema
