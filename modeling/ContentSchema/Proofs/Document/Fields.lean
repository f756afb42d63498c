import ContentSchema.Proofs.Document.Reading

/-!
# Fields as written

The items and nodes that can have been read are the `Normal` ones: what is free-form is not
a null that was read as absent, and what was kept has no name that is known.

* `FieldNode.normal_of_decode` leads from values to them, by recursion over the value.
* `FieldNode.decode_encode` leads from them through what is written of them, by induction
  over the tree.
* `FieldNode.config_of_decode` says that foreign names are kept in order, nulls included.

A node that is NOT normal can be written, but is read again as another one.
-/

namespace ContentSchema

open Datum (Slots Kept)

/-! ## Items -/

namespace FieldItem

/-- An item that can have been read: its value is not a null that was read as absent, and
the rest was kept. -/
structure Normal (item : FieldItem) : Prop where
  value : ∀ v, item.value = some v → v ≠ .null ∧ v.IsJson
  extra : Kept attributeNames item.extra

/-- The attributes of an item by name, each with its value if it has one. -/
def slots (item : FieldItem) : List (String × Option Value) :=
  [("label", item.label.map Value.string), ("value", item.value)]

theorem nodup_attributeNames : attributeNames.Nodup := by decide

theorem encode_eq {item : FieldItem} (hNormal : item.Normal) :
    item.encode = .object (Entries.present item.slots ++ item.extra) := by
  rw [encode, Value.textEntry?, Value.entry?_eq_present, Value.entry?_eq_present,
    ← Entries.present_append]
  exact congrArg Value.object
    (hNormal.extra.insertAll_eq_append item.slots nodup_attributeNames rfl)

/-- An item that can have been read is read from what is written of it. -/
theorem decode_encode {item : FieldItem} (hNormal : item.Normal) :
    decode (.ofValue item.encode) = .ok item := by
  have hKept := hNormal.extra
  have hLookup {name : String} {v : Option Value} (hSlot : (name, v) ∈ item.slots) :=
    hKept.lookup_append item.slots nodup_attributeNames rfl hSlot
  rw [encode_eq hNormal]
  refine decode_eq_ok_iff.mpr ⟨_, rfl, ?_, ?_, ?_, ?_⟩
  · exact Entries.distinct_among (hKept.distinct_append item.slots nodup_attributeNames rfl)
  · exact Slots.optional_eq_ok Value.string (by decide) (hLookup (by simp [slots]))
      fun s _ => ⟨nofun, Datum.text_ofValue_string s⟩
  · exact Slots.value_eq_ok (by decide) (hLookup (by simp [slots])) hNormal.value
  · exact hKept.exists_mapM_settleEntry item.slots rfl

/-- What is written of an item that can have been read is a JSON value. -/
theorem isJson_encode {item : FieldItem} (hNormal : item.Normal) : item.encode.IsJson := by
  rw [encode_eq hNormal]
  refine hNormal.extra.isJson_append item.slots nodup_attributeNames rfl ?_
  simp only [slots, List.forall_mem_cons]
  exact ⟨Value.heldJson_text _, fun v hValue => (hNormal.value v hValue).2, List.forall_mem_nil _⟩

/-- Where every double is a number, what is read is an item that can have been read. -/
theorem normal_of_decode {v : Value} {item : FieldItem} (hFinite : v.Finite)
    (hRead : decode (.ofValue v) = .ok item) : item.Normal := by
  obtain ⟨written, rfl, hItem⟩ := decode_eq_ok_iff.mp hRead
  obtain ⟨pairs, hPairs, hExtra⟩ := hItem.extra
  exact ⟨Slots.of_value hFinite (by decide) hItem.value,
    hExtra ▸ Datum.kept_of_mapM_settleEntry hPairs⟩

/-- What an item says beyond its attributes is kept as it was written. -/
theorem extra_of_decode {written : Entries Value} {item : FieldItem}
    (hJson : (Value.object written).IsJson)
    (hRead : decode (.ofValue (.object written)) = .ok item) :
    item.extra = Entries.outside attributeNames written := by
  obtain ⟨_, ⟨rfl⟩, hItem⟩ := decode_eq_ok_iff.mp hRead
  obtain ⟨pairs, hPairs, hExtra⟩ := hItem.extra
  rw [hExtra, Datum.ofList_eq_outside hJson hPairs]

end FieldItem

/-! ## Nodes -/

/-- Attributes that can have been read: what is free-form is not a null that was read as
absent, and the configuration was kept. -/
structure FieldAttributes.Normal (node : FieldAttributes) : Prop where
  items : ∀ item ∈ node.items, item.Normal
  displayCond : ∀ v, node.displayCond = some v → v ≠ .null ∧ v.IsJson
  config : Kept FieldNode.knownNames node.config

namespace FieldNode

/-- A node that can have been read, with all nodes in it. -/
inductive Normal : FieldNode → Prop
  | mk {node : FieldAttributes} {fields container : List FieldNode} (hNode : node.Normal)
      (hFields : ∀ nested ∈ fields, Normal nested)
      (hContainer : ∀ nested ∈ container, Normal nested) : Normal ⟨node, fields, container⟩

/-! ## From written nodes -/

/-- The known names of a node, each with its value if it has one. -/
def slots (node : FieldAttributes) (fields container : List FieldNode) :
    List (String × Option Value) :=
  [("identifier", node.identifier.map Value.string),
    ("type", node.type.map Value.string),
    ("label", node.label.map Value.string),
    ("description", node.description.map Value.string),
    ("useExistingField", Value.flag? node.useExistingField),
    ("prefixField", node.prefixField.map Value.bool),
    ("fields", Value.filled? (fields.map encode)),
    ("container", Value.filled? (container.map encode)),
    ("items", Value.filled? (node.items.map FieldItem.encode)),
    ("displayCond", node.displayCond),
    ("table", node.table.map Value.string),
    ("foreignField", node.foreignField.map Value.string),
    ("shareAcrossTables", Value.flag? node.shareAcrossTables),
    ("shareAcrossFields", Value.flag? node.shareAcrossFields),
    ("linkTitle", node.linkTitle.map Value.string)]

theorem encodeAll_eq_map (nodes : List FieldNode) : encodeAll nodes = nodes.map encode := by
  induction nodes with
  | nil => rfl
  | cons node rest ih => rw [encodeAll, ih, List.map_cons]

theorem encode_eq {node : FieldAttributes} (hKept : Kept knownNames node.config)
    (fields container : List FieldNode) :
    encode ⟨node, fields, container⟩ =
      .object (Entries.present (slots node fields container) ++ node.config) := by
  rw [encode]
  simp only [encodeAll_eq_map, Value.textEntry?, Value.boolEntry?, Value.entry?_eq_present,
    Value.flagEntry?_eq_present, Value.listEntry?_eq_present, ← Entries.present_append]
  exact congrArg Value.object
    (hKept.insertAll_eq_append (slots node fields container) nodup_knownNames rfl)

/-- Nested nodes are read again when each is. -/
theorem decodeList_map_encode {nodes : List FieldNode}
    (hNodes : ∀ node ∈ nodes, decode (.ofValue node.encode) = .ok node) :
    decodeList (.ofValue (.list (nodes.map encode))) = .ok nodes := by
  show decodeAll (Datum.ofItems (nodes.map encode)) = .ok nodes
  induction nodes with
  | nil => rfl
  | cons node rest ih =>
      obtain ⟨hNode, hRest⟩ := List.forall_mem_cons.mp hNodes
      rw [List.map_cons, Datum.ofItems, decodeAll, hNode, ih hRest]
      rfl

/-- Nested nodes are read again, and there are none where none are written. -/
theorem exists_nestedFrom {nodes : List FieldNode}
    (hNodes : ∀ node ∈ nodes, decode (.ofValue node.encode) = .ok node) :
    ∃ read, NestedFrom (Value.filled? (nodes.map encode)) read ∧ nodes = read.getD [] := by
  cases nodes with
  | nil => exact ⟨none, .none, rfl⟩
  | cons first rest => exact ⟨_, .some (decodeList_map_encode hNodes), rfl⟩

/-- A node that can have been read is read from what is written of it. -/
theorem decode_encode {node : FieldNode} (hNormal : node.Normal) :
    decode (.ofValue node.encode) = .ok node := by
  induction hNormal with
  | @mk node fields container hNode _ _ ihFields ihContainer =>
      have hKept := hNode.config
      -- What was kept has no known name, so every known name finds its own slot.
      have hLookup {name : String} {v : Option Value}
          (hSlot : (name, v) ∈ slots node fields container) :
          (Entries.present (slots node fields container) ++ node.config).lookup name = v :=
        hKept.lookup_append (slots node fields container) nodup_knownNames rfl hSlot
      have hText {name : String} {text : Option String} (hName : name ∈ FieldAttributes.names)
          (hSlot : (name, text.map Value.string) ∈ slots node fields container) :=
        Slots.optional_eq_ok Value.string hName (hLookup hSlot)
          fun s _ => ⟨nofun, Datum.text_ofValue_string s⟩
      rw [encode_eq hKept, decode_object_eq_ok_iff]
      refine ⟨Entries.distinct_among
        (hKept.distinct_append (slots node fields container) nodup_knownNames rfl), ?_,
        hKept.exists_mapM_settleEntry (slots node fields container) rfl, ?_, ?_⟩
      · exact {
          identifier := hText (by decide) (by simp [slots])
          type := hText (by decide) (by simp [slots])
          label := hText (by decide) (by simp [slots])
          description := hText (by decide) (by simp [slots])
          useExistingField := Slots.flag_eq_ok (by decide) (hLookup (by simp [slots]))
          prefixField := Slots.optional_eq_ok Value.bool (by decide) (hLookup (by simp [slots]))
            fun b _ => ⟨nofun, Datum.bool_ofValue_bool b⟩
          items := Slots.list_eq_ok FieldItem.encode (by decide) (hLookup (by simp [slots]))
            fun item hItem => FieldItem.decode_encode (hNode.items item hItem)
          displayCond := Slots.value_eq_ok (by decide) (hLookup (by simp [slots])) hNode.displayCond
          table := hText (by decide) (by simp [slots])
          foreignField := hText (by decide) (by simp [slots])
          shareAcrossTables := Slots.flag_eq_ok (by decide) (hLookup (by simp [slots]))
          shareAcrossFields := Slots.flag_eq_ok (by decide) (hLookup (by simp [slots]))
          linkTitle := hText (by decide) (by simp [slots]) }
      · rw [hLookup (by simp [slots] : ("fields", Value.filled? (fields.map encode)) ∈ _)]
        exact exists_nestedFrom ihFields
      · rw [hLookup (by simp [slots] : ("container", Value.filled? (container.map encode)) ∈ _)]
        exact exists_nestedFrom ihContainer

/-- What is written of a node that can have been read is a JSON value. -/
theorem isJson_encode {node : FieldNode} (hNormal : node.Normal) : node.encode.IsJson := by
  induction hNormal with
  | @mk node fields container hNode _ _ ihFields ihContainer =>
      rw [encode_eq hNode.config]
      refine hNode.config.isJson_append (slots node fields container) nodup_knownNames rfl ?_
      have hNested {nodes : List FieldNode} (hNodes : ∀ nested ∈ nodes, nested.encode.IsJson) :
          Value.HeldJson (Value.filled? (nodes.map encode)) :=
        Value.heldJson_filled? (List.forall_mem_map.mpr hNodes)
      have hItems : Value.HeldJson (Value.filled? (node.items.map FieldItem.encode)) :=
        Value.heldJson_filled? (List.forall_mem_map.mpr fun item hItem =>
          FieldItem.isJson_encode (hNode.items item hItem))
      simp only [slots, List.forall_mem_cons]
      exact ⟨Value.heldJson_text _, Value.heldJson_text _, Value.heldJson_text _,
        Value.heldJson_text _, Value.heldJson_flag? _, Value.heldJson_bool _, hNested ihFields,
        hNested ihContainer, hItems, fun v hCond => (hNode.displayCond v hCond).2,
        Value.heldJson_text _, Value.heldJson_text _, Value.heldJson_flag? _,
        Value.heldJson_flag? _, Value.heldJson_text _, List.forall_mem_nil _⟩

/-! ## From what was read -/

theorem items_normal {written : Entries Value} {node : FieldNode}
    (hFinite : Value.EntriesFinite written) (hNode : ReadFrom written node) :
    ∀ item ∈ node.items, item.Normal := by
  intro item hItem
  obtain hNone | ⟨v, hWritten, hRead⟩ := Slots.of_withDefault (by decide) hNode.attributes.items
  · rw [hNone] at hItem
    cases hItem
  · obtain ⟨values, rfl, value, hValue, hStep⟩ := Datum.exists_of_mem_listOf hRead hItem
    have hNumbers : (Value.list values).Finite :=
      Value.entriesFinite_iff.mp hFinite _ (Entries.mem_of_lookup hWritten)
    exact FieldItem.normal_of_decode (Value.itemsFinite_iff.mp hNumbers value hValue) hStep

/-- Where every double is a number, what a node says of itself can have been read. -/
theorem attributes_normal {written : Entries Value} {node : FieldNode}
    (hFinite : Value.EntriesFinite written) (hNode : ReadFrom written node) :
    node.toFieldAttributes.Normal := by
  obtain ⟨pairs, hPairs, hConfig⟩ := hNode.config
  exact ⟨items_normal hFinite hNode,
    Slots.of_value hFinite (by decide) hNode.attributes.displayCond,
    hConfig ▸ Datum.kept_of_mapM_settleEntry hPairs⟩

/-- What is read of nested nodes that are written somewhere. -/
theorem exists_of_mem_nested {v : Option Value} {nodes : Option (List FieldNode)}
    (hNested : NestedFrom v nodes) {node : FieldNode} (hNode : node ∈ nodes.getD []) :
    ∃ written read, v = some written ∧ decodeList (.ofValue written) = .ok read ∧ node ∈ read := by
  cases hNested with
  | none => cases hNode
  | some hRead => exact ⟨_, _, rfl, hRead, hNode⟩

mutual

/-- Where every double is a number, what is read is a node that can have been read. -/
theorem normal_of_decode : ∀ {v : Value} {node : FieldNode}, v.Finite →
    decode (.ofValue v) = .ok node → node.Normal
  | .object written, ⟨_, _, _⟩, hFinite, hRead => by
      -- Nested nodes are read of values under a name, which are parts of this one.
      have hNode := decode_object_eq_ok_iff.mp hRead
      obtain ⟨fields, hFields, hFieldsMade⟩ := hNode.fields
      obtain ⟨container, hContainer, hContainerMade⟩ := hNode.container
      cases hFieldsMade
      cases hContainerMade
      refine .mk (attributes_normal hFinite hNode) (fun nested hNested => ?_)
        fun nested hNested => ?_
      · obtain ⟨v, read, hWritten, hList, hMem⟩ := exists_of_mem_nested hFields hNested
        exact normal_of_lookup hFinite hWritten hList nested hMem
      · obtain ⟨v, read, hWritten, hList, hMem⟩ := exists_of_mem_nested hContainer hNested
        exact normal_of_lookup hFinite hWritten hList nested hMem
  | .null, _, _, hRead | .bool _, _, _, hRead | .int _, _, _, hRead | .double _, _, _, hRead
  | .string _, _, _, hRead | .list _, _, _, hRead => nomatch hRead

theorem normal_of_lookup : ∀ {written : List (String × Value)} {name : String} {v : Value}
    {nodes : List FieldNode}, Value.EntriesFinite written → written.lookup name = some v →
      decodeList (.ofValue v) = .ok nodes → ∀ node ∈ nodes, node.Normal
  | (key, value) :: rest, name, v, nodes, ⟨hFinite, hRest⟩, hWritten, hRead => by
      rw [List.lookup_cons] at hWritten
      split at hWritten
      · cases hWritten
        exact normal_of_decodeList hFinite hRead
      · exact normal_of_lookup hRest hWritten hRead

theorem normal_of_decodeList : ∀ {v : Value} {nodes : List FieldNode}, v.Finite →
    decodeList (.ofValue v) = .ok nodes → ∀ node ∈ nodes, node.Normal
  | .list _, _, hFinite, hRead => normal_of_decodeAll hFinite hRead
  | .null, _, _, hRead | .bool _, _, _, hRead | .int _, _, _, hRead | .double _, _, _, hRead
  | .string _, _, _, hRead | .object _, _, _, hRead => nomatch hRead

theorem normal_of_decodeAll : ∀ {items : List Value} {nodes : List FieldNode},
    Value.ItemsFinite items → decodeAll (Datum.ofItems items) = .ok nodes →
      ∀ node ∈ nodes, node.Normal
  | [], nodes, _, hRead => by
      cases hRead
      simp
  | item :: rest, nodes, ⟨hFinite, hRest⟩, hRead => by
      obtain ⟨node, hNode, hMore⟩ := bind_eq_ok_iff.mp hRead
      obtain ⟨others, hOthers, hMade⟩ := bind_eq_ok_iff.mp hMore
      cases hMade
      exact List.forall_mem_cons.mpr
        ⟨normal_of_decode hFinite hNode, normal_of_decodeAll hRest hOthers⟩

end

/-- What a node says beyond the names it knows is kept as it was written. -/
theorem config_of_decode {written : Entries Value} {node : FieldNode}
    (hJson : (Value.object written).IsJson)
    (hRead : decode (.ofValue (.object written)) = .ok node) :
    node.config = Entries.outside knownNames written := by
  obtain ⟨pairs, hPairs, hConfig⟩ := (decode_object_eq_ok_iff.mp hRead).config
  rw [hConfig, Datum.ofList_eq_outside hJson hPairs]

end FieldNode
end ContentSchema
