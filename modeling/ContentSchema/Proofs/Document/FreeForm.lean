import ContentSchema.Proofs.Document.RoundTrip

/-!
# Free-form parts of documents

Item values, display conditions and configuration are free-form, and a reader takes what it
finds there as a value.  Whatever it reads them of, the values are such that a JSON text can
hold them.

* `FieldNode.HoldsJson` says so of a node and of all nodes in it.
* `FieldNode.holdsJson_of_decode` says that it holds of every node that is read.
* `SchemaDocument.holdsJson_of_decode` says so of documents.

A condition that is read may be null: a scalar that spells a double beyond all numbers is
NOT taken for an absent value.  What is read of values whose doubles are numbers has no such
condition, so what is required of conditions is a parameter.
-/

namespace ContentSchema

open Datum (Slots)

/-! ## Reading of any data -/

namespace Datum

variable {α : Type} {read : Datum → Except DecodeError α} {a : α}

theorem exists_of_mem_listOf_ok {d : Datum} {items : List α} (hRead : listOf read d = .ok items)
    {item : α} (hItem : item ∈ items) : ∃ part, read part = .ok item := by
  obtain ⟨parts, _, hParts⟩ := bind_eq_ok_iff.mp hRead
  obtain ⟨part, _, hPart⟩ := exists_of_mem_mapM hParts hItem
  exact ⟨part, hPart⟩

/-- What a field with a default is read as is the default or read of something. -/
theorem Slots.exists_of_withDefault {slots : Slots} {field : String} {default : α}
    (hRead : slots.withDefault field default read = .ok a) :
    a = default ∨ ∃ d, read d = .ok a := by
  unfold Slots.withDefault at hRead
  split at hRead
  case h_1 d _ => exact .inr ⟨d, hRead⟩
  case h_2 => exact .inl (Except.ok.inj hRead).symm

/-- What an optional field is read as is read of something. -/
theorem Slots.exists_of_optional {slots : Slots} {field : String}
    (hRead : slots.optional field read = .ok (some a)) : ∃ d, read d = .ok a := by
  rcases Slots.exists_of_withDefault hRead with hNone | ⟨d, hSome⟩
  · cases hNone
  · unfold Datum.optional at hSome
    split at hSome
    · cases hSome
    · split at hSome
      · cases hSome
      · cases hPart : read d with
        | error e =>
            rw [hPart] at hSome
            cases hSome
        | ok b =>
            rw [hPart] at hSome
            cases hSome
            exact ⟨d, hPart⟩

/-- A free-form value that is read is one that a JSON text can hold. -/
theorem Slots.heldJson_of_value {slots : Slots} {field : String} {v : Option Value}
    (hRead : slots.optional field value = .ok v) : Value.HeldJson v := by
  intro w hSome
  rw [hSome] at hRead
  obtain ⟨d, hValue⟩ := Slots.exists_of_optional hRead
  exact isJson_of_value hValue

/-- Entries that are kept make up an object that a JSON text can hold. -/
theorem isJson_of_mapM_settleEntry {others : List (String × Datum)} {pairs : Entries Value}
    (hRead : others.mapM settleEntry = .ok pairs) :
    (Value.object (Entries.ofList pairs)).IsJson := by
  refine Value.isJson_object_iff.mpr ⟨Entries.distinct_ofList pairs, fun pair hPair => ?_⟩
  obtain ⟨entry, _, hStep⟩ := exists_of_mem_mapM hRead (Entries.mem_of_mem_ofList hPair)
  exact (of_settleEntry hStep).2

end Datum

/-! ## Items and nodes -/

/-- A JSON text can hold what is free-form in the item. -/
structure FieldItem.HoldsJson (item : FieldItem) : Prop where
  value : Value.HeldJson item.value
  extra : (Value.object item.extra).IsJson

theorem FieldItem.holdsJson_of_decode {d : Datum} {item : FieldItem}
    (hRead : decode d = .ok item) : item.HoldsJson := by
  simp only [decode, bind_eq_ok_iff] at hRead
  obtain ⟨_, _, ⟨_, others⟩, _, _, _, value, hValue, pairs, hPairs, hMade⟩ := hRead
  cases hMade
  exact ⟨Slots.heldJson_of_value hValue, Datum.isJson_of_mapM_settleEntry hPairs⟩

/-- A JSON text can hold what is free-form in the attributes, and a condition has what is
required of conditions. -/
structure FieldAttributes.HoldsJson (Admits : Value → Prop) (node : FieldAttributes) : Prop where
  items : ∀ item ∈ node.items, item.HoldsJson
  displayCond : ∀ v, node.displayCond = some v → v.IsJson ∧ Admits v
  config : (Value.object node.config).IsJson

namespace FieldNode

variable {Admits : Value → Prop}

/-- A JSON text can hold what is free-form in the node and in all nodes in it. -/
inductive HoldsJson (Admits : Value → Prop) : FieldNode → Prop
  | mk {node : FieldNode} (hNode : node.toFieldAttributes.HoldsJson Admits)
      (hFields : ∀ nested ∈ node.fields, HoldsJson Admits nested)
      (hContainer : ∀ nested ∈ node.container, HoldsJson Admits nested) : HoldsJson Admits node

theorem HoldsJson.attributes {node : FieldNode} (hNode : node.HoldsJson Admits) :
    node.toFieldAttributes.HoldsJson Admits := by
  cases hNode
  assumption

theorem HoldsJson.fields {node : FieldNode} (hNode : node.HoldsJson Admits) :
    ∀ nested ∈ node.fields, nested.HoldsJson Admits := by
  cases hNode
  assumption

theorem HoldsJson.container {node : FieldNode} (hNode : node.HoldsJson Admits) :
    ∀ nested ∈ node.container, nested.HoldsJson Admits := by
  cases hNode
  assumption

/-- A node without a condition holds what its items, its configuration and its fields hold. -/
theorem holdsJson_of_unconditioned {node : FieldNode} (hItems : ∀ item ∈ node.items, item.HoldsJson)
    (hCond : node.displayCond = none) (hConfig : (Value.object node.config).IsJson)
    (hFields : ∀ nested ∈ node.fields, nested.HoldsJson Admits) (hContainer : node.container = []) :
    node.HoldsJson Admits := by
  refine .mk ⟨hItems, fun v hSome => ?_, hConfig⟩ hFields fun nested hNested => ?_
  · rw [hCond] at hSome
    cases hSome
  · rw [hContainer] at hNested
    cases hNested

/-! ## What is read -/

/-- What a node says of itself is read of its own entries, whatever they are. -/
theorem holdsJson_of_ofParts {parts : Parts} {node : FieldNode} (hRead : ofParts parts = .ok node) :
    node.toFieldAttributes.HoldsJson (fun _ => True) ∧ node.fields = parts.fields.getD [] ∧
      node.container = parts.container.getD [] := by
  simp only [ofParts, bind_eq_ok_iff] at hRead
  obtain ⟨_, _, _, _, _, _, _, _, _, _, _, _, items, hItems, displayCond, hCond, _, _, _, _, _, _,
    _, _, _, _, pairs, hPairs, hMade⟩ := hRead
  cases hMade
  refine ⟨⟨fun item hItem => ?_, fun v hSome => ⟨Slots.heldJson_of_value hCond v hSome, trivial⟩,
    Datum.isJson_of_mapM_settleEntry hPairs⟩, rfl, rfl⟩
  rcases Slots.exists_of_withDefault hItems with hNone | ⟨d, hList⟩
  · rw [hNone] at hItem
    cases hItem
  · obtain ⟨part, hPart⟩ := Datum.exists_of_mem_listOf_ok hList hItem
    exact FieldItem.holdsJson_of_decode hPart

/-- The nested nodes that were split off hold only what a JSON text can hold. -/
structure Parts.HoldsJson (parts : Parts) : Prop where
  fields : ∀ node ∈ parts.fields.getD [], node.HoldsJson fun _ => True
  container : ∀ node ∈ parts.container.getD [], node.HoldsJson fun _ => True

/-- An entry that holds no nodes changes nothing about those that were split off. -/
theorem Parts.HoldsJson.add {parts after : Parts} {name : String} {d : Datum}
    (hParts : parts.HoldsJson) (hAdd : parts.add name d = .ok after) : after.HoldsJson := by
  unfold Parts.add at hAdd
  split at hAdd
  · split at hAdd
    · cases hAdd
    · cases hAdd
      exact ⟨hParts.fields, hParts.container⟩
  · cases hAdd
    exact ⟨hParts.fields, hParts.container⟩

mutual

/-- A JSON text can hold what is free-form in any node that is read. -/
theorem holdsJson_of_decode : ∀ {d : Datum} {node : FieldNode}, decode d = .ok node →
    node.HoldsJson fun _ => True
  | .record entries, node, hRead => by
      rw [decode] at hRead
      obtain ⟨parts, hParts, hMade⟩ := bind_eq_ok_iff.mp hRead
      obtain ⟨hNode, hFields, hContainer⟩ := holdsJson_of_ofParts hMade
      have hNested := holdsJson_of_decodeParts hParts
      exact .mk hNode (hFields ▸ hNested.fields) (hContainer ▸ hNested.container)
  | .tagged d, _, hRead => by
      rw [decode] at hRead
      exact holdsJson_of_decode hRead
  | .scalar s, node, hRead => by
      rw [decode] at hRead
      split at hRead
      · cases hRead
        exact holdsJson_of_unconditioned (List.forall_mem_nil _) rfl Value.isJson_empty
          (List.forall_mem_nil _) rfl
      · cases hRead
  | .atom _, _, hRead | .list _, _, hRead => nomatch hRead

theorem holdsJson_of_decodeParts : ∀ {entries : List (Datum × Datum)} {parts : Parts},
    decodeParts entries = .ok parts → parts.HoldsJson
  | [], parts, hRead => by
      rw [decodeParts] at hRead
      cases hRead
      exact ⟨List.forall_mem_nil _, List.forall_mem_nil _⟩
  | (name, d) :: rest, parts, hRead => by
      simp only [decodeParts, bind_eq_ok_iff] at hRead
      obtain ⟨name, _, before, hBefore, hStep⟩ := hRead
      have hRest := holdsJson_of_decodeParts hBefore
      split at hStep
      · obtain ⟨nodes, hNodes, hMade⟩ := bind_eq_ok_iff.mp hStep
        split at hMade
        · cases hMade
        · cases hMade
          exact ⟨holdsJson_of_decodeList hNodes, hRest.container⟩
      · split at hStep
        · obtain ⟨nodes, hNodes, hMade⟩ := bind_eq_ok_iff.mp hStep
          split at hMade
          · cases hMade
          · cases hMade
            exact ⟨hRest.fields, holdsJson_of_decodeList hNodes⟩
        · exact hRest.add hStep

theorem holdsJson_of_decodeList : ∀ {d : Datum} {nodes : List FieldNode},
    decodeList d = .ok nodes → ∀ node ∈ nodes, node.HoldsJson fun _ => True
  | .list items, nodes, hRead => by
      rw [decodeList] at hRead
      exact holdsJson_of_decodeAll hRead
  | .tagged d, _, hRead => by
      rw [decodeList] at hRead
      exact holdsJson_of_decodeList hRead
  | .scalar s, nodes, hRead => by
      rw [decodeList] at hRead
      split at hRead
      · cases hRead
        exact List.forall_mem_nil _
      · cases hRead
  | .atom _, _, hRead | .record _, _, hRead => nomatch hRead

theorem holdsJson_of_decodeAll : ∀ {items : List Datum} {nodes : List FieldNode},
    decodeAll items = .ok nodes → ∀ node ∈ nodes, node.HoldsJson fun _ => True
  | [], nodes, hRead => by
      rw [decodeAll] at hRead
      cases hRead
      exact List.forall_mem_nil _
  | d :: rest, nodes, hRead => by
      simp only [decodeAll, bind_eq_ok_iff] at hRead
      obtain ⟨node, hNode, others, hOthers, hMade⟩ := hRead
      cases hMade
      exact List.forall_mem_cons.mpr ⟨holdsJson_of_decode hNode, holdsJson_of_decodeAll hOthers⟩

end

/-- Nodes that can have been read of values hold only what a JSON text can hold, and their
conditions are not null. -/
theorem Normal.holdsJson {node : FieldNode} (hNormal : node.Normal) :
    node.HoldsJson fun v => v ≠ .null := by
  induction hNormal with
  | mk hNode _ _ ihFields ihContainer =>
      refine .mk ⟨fun item hItem => ?_, fun v hCond => (hNode.displayCond v hCond).symm,
        Value.isJson_object_iff.mpr ⟨hNode.config.distinct, hNode.config.json⟩⟩ ihFields ihContainer
      have hItemNormal := hNode.items item hItem
      exact ⟨fun v hValue => (hItemNormal.value v hValue).2,
        Value.isJson_object_iff.mpr ⟨hItemNormal.extra.distinct, hItemNormal.extra.json⟩⟩

end FieldNode

/-! ## Documents -/

/-- A JSON text can hold what is free-form in the nodes of the document, and its priority
fits thirty-two bits. -/
structure SchemaDocument.HoldsJson (Admits : Value → Prop) (document : SchemaDocument) : Prop where
  priority : -0x80000000 ≤ document.priority ∧ document.priority < 0x80000000
  fields : ∀ node ∈ document.fields, node.HoldsJson Admits

namespace SchemaDocument

/-- A JSON text can hold what is free-form in any document that is read. -/
theorem holdsJson_of_decode {d : Datum} {document : SchemaDocument}
    (hRead : decode d = .ok document) : document.HoldsJson fun _ => True := by
  simp only [decode, bind_eq_ok_iff] at hRead
  obtain ⟨_, _, ⟨_, _⟩, _, _, _, _, _, _, _, _, _, _, _, _, _, _, _, _, _, _, _, _, _, _, _,
    priority, hPriority, _, _, _, _, _, _, _, _, fields, hFields, _, _, hMade⟩ := hRead
  cases hMade
  constructor
  · rcases Slots.exists_of_withDefault hPriority with hDefault | ⟨d, hInt⟩
    · rw [hDefault]
      show -0x80000000 ≤ (0 : Int) ∧ (0 : Int) < 0x80000000
      decide
    · exact (Datum.int32_eq_ok_iff.mp hInt).2
  · rcases Slots.exists_of_withDefault hFields with hDefault | ⟨d, hList⟩
    · rw [hDefault]
      exact List.forall_mem_nil _
    · exact FieldNode.holdsJson_of_decodeList hList

/-- Where every double is a number, no condition that is read is null. -/
theorem holdsJson_of_decode_ofValue {v : Value} {document : SchemaDocument} (hFinite : v.Finite)
    (hRead : decode (.ofValue v) = .ok document) : document.HoldsJson fun v => v ≠ .null := by
  have hNormal := normal_of_decode hFinite hRead
  exact ⟨hNormal.priority, fun node hNode => (hNormal.fields node hNode).holdsJson⟩

end SchemaDocument
end ContentSchema
