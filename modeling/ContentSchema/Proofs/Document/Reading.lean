import ContentSchema.Document.Field
import ContentSchema.Proofs.Datum.Reading

/-!
# What is read of fields

A field node knows fifteen names, and an item two; whatever else is written of them is kept.
`ReadFrom` says name by name what is read, and these say that reading ends well exactly
when something is read for every name.

* `FieldItem.decode_eq_ok_iff` is about items.
* `FieldNode.decode_object_eq_ok_iff` is about nodes, and rests on
  `FieldNode.decodeParts_eq_ok_iff`, which follows the entries of a node one by one.

Nested nodes are NOT told name by name: `NestedFrom` only says that they are read.
-/

namespace ContentSchema

open Datum (Slots)

/-! ## Items -/

namespace FieldItem

/-- What an item that can be read is written as, and what is read of it. -/
structure ReadFrom (written : Entries Value) (item : FieldItem) : Prop where
  distinct : Entries.Distinct (Entries.among attributeNames written)
  label : (Slots.ofWritten attributeNames written).optional "label" Datum.text = .ok item.label
  value : (Slots.ofWritten attributeNames written).optional "value" Datum.value = .ok item.value
  extra : ∃ pairs, (Entries.mapValues Datum.ofValue (Entries.outside attributeNames written)).mapM
    Datum.settleEntry = .ok pairs ∧ item.extra = Entries.ofList pairs

theorem decode_eq_ok_iff {v : Value} {item : FieldItem} :
    decode (.ofValue v) = .ok item ↔ ∃ written, v = .object written ∧ ReadFrom written item := by
  rw [decode]
  simp only [bind_eq_ok_iff, Datum.entries_ofValue_eq_ok_iff, Prod.exists]
  constructor
  · rintro ⟨_, ⟨written, rfl, rfl⟩, found, others, hSplit, label, hLabel, value, hValue, pairs,
      hPairs, hMade⟩
    obtain ⟨hDistinct, rfl, rfl⟩ := Datum.splitKnown_ofEntries_iff.mp hSplit
    cases hMade
    exact ⟨written, rfl, hDistinct, hLabel, hValue, pairs, hPairs, rfl⟩
  · rintro ⟨written, rfl, hDistinct, hLabel, hValue, pairs, hPairs, hExtra⟩
    refine ⟨_, ⟨written, rfl, rfl⟩, _, _, Datum.splitKnown_ofEntries_iff.mpr ⟨hDistinct, rfl, rfl⟩,
      _, hLabel, _, hValue, _, hPairs, ?_⟩
    rw [← hExtra]
    rfl

end FieldItem

/-! ## Nodes -/

namespace FieldNode

/-- The names that a node knows, in the order in which they are written. -/
def knownNames : List String :=
  ["identifier", "type", "label", "description", "useExistingField", "prefixField", "fields",
    "container", "items", "displayCond", "table", "foreignField", "shareAcrossTables",
    "shareAcrossFields", "linkTitle"]

theorem nodup_knownNames : knownNames.Nodup := by decide

theorem mem_knownNames_iff {name : String} :
    name ∈ knownNames ↔ name = "fields" ∨ name = "container" ∨ name ∈ FieldAttributes.names := by
  have hSame : knownNames.Perm ("fields" :: "container" :: FieldAttributes.names) := by decide
  rw [hSame.mem_iff, List.mem_cons, List.mem_cons]

/-- What is read of nested nodes: nothing where none are written. -/
abbrev NestedFrom : Option Value → Option (List FieldNode) → Prop :=
  Option.Rel fun v nodes => decodeList (.ofValue v) = .ok nodes

theorem nestedFrom_some_iff {v : Value} {nodes : Option (List FieldNode)} :
    NestedFrom (some v) nodes ↔ ∃ read, decodeList (.ofValue v) = .ok read ∧ some read = nodes := by
  constructor
  · rintro ⟨⟩
    exact ⟨_, ‹_›, rfl⟩
  · rintro ⟨read, hRead, rfl⟩
    exact .some hRead

/-- Nothing is read exactly where nothing is written. -/
theorem NestedFrom.isSome_eq {v : Option Value} {nodes : Option (List FieldNode)}
    (hNested : NestedFrom v nodes) : nodes.isSome = v.isSome := by
  cases hNested <;> rfl

/-- The entries of a written node, split, with the nested nodes that are read of it. -/
def Parts.ofWritten (written : Entries Value) (fields container : Option (List FieldNode)) :
    Parts where
  found := Entries.mapValues Datum.ofValue (Entries.among FieldAttributes.names written)
  others := Entries.mapValues Datum.ofValue (Entries.outside knownNames written)
  fields := fields
  container := container

section Step

variable {rest : Entries Value} {name : String} {v : Value}
  {fields container : Option (List FieldNode)}

/-- Nested nodes are split off. -/
theorem Parts.ofWritten_nested (hKnown : name ∈ knownNames)
    (hApart : name ∉ FieldAttributes.names) :
    Parts.ofWritten ((name, v) :: rest) fields container =
      Parts.ofWritten rest fields container := by
  rw [ofWritten, ofWritten, Entries.among_cons_of_not_mem hApart,
    Entries.outside_cons_of_mem hKnown]

/-- Any other entry is added where it belongs, unless its name is known and repeats. -/
theorem Parts.add_ofWritten (hFields : name ≠ "fields") (hContainer : name ≠ "container") :
    (Parts.ofWritten rest fields container).add name (.ofValue v) =
      if name ∈ knownNames ∧ (rest.lookup name).isSome then .error (.repeated name)
      else .ok (Parts.ofWritten ((name, v) :: rest) fields container) := by
  rw [add, ofWritten]
  -- Apart from the names of nested nodes, the known names are the attributes.
  by_cases hAttribute : name ∈ FieldAttributes.names
  · have hKnown : name ∈ knownNames := mem_knownNames_iff.mpr (.inr (.inr hAttribute))
    rw [if_pos (List.contains_iff_mem.mpr hAttribute), Entries.lookup_mapValues,
      Option.isSome_map, Entries.lookup_among hAttribute, ofWritten,
      Entries.among_cons_of_mem hAttribute, Entries.outside_cons_of_mem hKnown]
    by_cases hRepeated : (rest.lookup name).isSome
    · rw [if_pos hRepeated, if_pos ⟨hKnown, hRepeated⟩]
    · rw [if_neg hRepeated, if_neg fun hBoth => hRepeated hBoth.2]
      rfl
  · have hUnknown : name ∉ knownNames := by
      simp [mem_knownNames_iff, hFields, hContainer, hAttribute]
    rw [if_neg fun hContains => hAttribute (List.contains_iff_mem.mp hContains), ofWritten,
      Entries.among_cons_of_not_mem hAttribute, Entries.outside_cons_of_not_mem hUnknown,
      if_neg fun hBoth => hUnknown hBoth.1]
    rfl

/-- What the entries of a node are read as: no known name is there twice, and the nested
nodes are those that are read. -/
def Parts.ReadFrom (written : Entries Value) (parts : Parts) : Prop :=
  Entries.Distinct (Entries.among knownNames written) ∧ ∃ fields container,
    NestedFrom (written.lookup "fields") fields ∧
      NestedFrom (written.lookup "container") container ∧
        parts = Parts.ofWritten written fields container

theorem Parts.readFrom_nil_iff {parts : Parts} : ReadFrom [] parts ↔ parts = {} := by
  constructor
  · rintro ⟨-, fields, container, hFields, hContainer, rfl⟩
    cases hFields
    cases hContainer
    rfl
  · rintro rfl
    exact ⟨Entries.distinct_nil, none, none, .none, .none, rfl⟩

/-- Nested fields in front are the only ones. -/
theorem Parts.readFrom_fields_iff {parts : Parts} :
    ReadFrom (("fields", v) :: rest) parts ↔ ∃ before, ReadFrom rest before ∧
      ∃ nodes, decodeList (.ofValue v) = .ok nodes ∧
        (if before.fields.isSome then .error (DecodeError.repeated "fields")
          else .ok { before with fields := some nodes }) = Except.ok parts := by
  have hSplit := @Parts.ofWritten_nested rest "fields" v
  rw [ReadFrom, Entries.distinct_among_cons_iff (by decide)]
  constructor
  · rintro ⟨⟨hNew, hDistinct⟩, fields, container, hFields, hContainer, rfl⟩
    obtain ⟨nodes, hNodes, rfl⟩ := nestedFrom_some_iff.mp hFields
    -- The name is new, so before the entry was read nothing was read under it.
    have hNone : rest.lookup "fields" = none := by simpa using hNew
    refine ⟨_, ⟨hDistinct, none, container, hNone ▸ .none, hContainer, rfl⟩, nodes, hNodes, ?_⟩
    rw [hSplit (by decide) (by decide)]
    rfl
  · rintro ⟨_, ⟨hDistinct, before, container, hBefore, hContainer, rfl⟩, nodes, hNodes, hMade⟩
    cases before with
    | some _ => cases hMade
    | none =>
        cases hMade
        refine ⟨⟨hBefore.isSome_eq.symm, hDistinct⟩, some nodes, container, .some hNodes,
          hContainer, ?_⟩
        rw [hSplit (by decide) (by decide)]
        rfl

/-- Containers in front are the only ones. -/
theorem Parts.readFrom_container_iff {parts : Parts} :
    ReadFrom (("container", v) :: rest) parts ↔ ∃ before, ReadFrom rest before ∧
      ∃ nodes, decodeList (.ofValue v) = .ok nodes ∧
        (if before.container.isSome then .error (DecodeError.repeated "container")
          else .ok { before with container := some nodes }) = Except.ok parts := by
  have hSplit := @Parts.ofWritten_nested rest "container" v
  rw [ReadFrom, Entries.distinct_among_cons_iff (by decide)]
  constructor
  · rintro ⟨⟨hNew, hDistinct⟩, fields, container, hFields, hContainer, rfl⟩
    obtain ⟨nodes, hNodes, rfl⟩ := nestedFrom_some_iff.mp hContainer
    have hNone : rest.lookup "container" = none := by simpa using hNew
    refine ⟨_, ⟨hDistinct, fields, none, hFields, hNone ▸ .none, rfl⟩, nodes, hNodes, ?_⟩
    rw [hSplit (by decide) (by decide)]
    rfl
  · rintro ⟨_, ⟨hDistinct, fields, before, hFields, hBefore, rfl⟩, nodes, hNodes, hMade⟩
    cases before with
    | some _ => cases hMade
    | none =>
        cases hMade
        refine ⟨⟨hBefore.isSome_eq.symm, hDistinct⟩, fields, some nodes, hFields, .some hNodes, ?_⟩
        rw [hSplit (by decide) (by decide)]
        rfl

/-- Any other entry in front is added. -/
theorem Parts.readFrom_other_iff {parts : Parts} (hFields : name ≠ "fields")
    (hContainer : name ≠ "container") :
    ReadFrom ((name, v) :: rest) parts ↔
      ∃ before, ReadFrom rest before ∧ before.add name (.ofValue v) = .ok parts := by
  have hFieldsKept : ((name, v) :: rest).lookup "fields" = rest.lookup "fields" := by
    rw [List.lookup_cons, beq_eq_false_iff_ne.mpr (Ne.symm hFields)]
  have hContainerKept : ((name, v) :: rest).lookup "container" = rest.lookup "container" := by
    rw [List.lookup_cons, beq_eq_false_iff_ne.mpr (Ne.symm hContainer)]
  -- A foreign name may repeat; only the names that are known must not.
  have hDistinctCons : Entries.Distinct (Entries.among knownNames ((name, v) :: rest)) ↔
      ¬(name ∈ knownNames ∧ (rest.lookup name).isSome) ∧
        Entries.Distinct (Entries.among knownNames rest) := by
    by_cases hKnown : name ∈ knownNames
    · simp only [Entries.distinct_among_cons_iff hKnown, hKnown, true_and, Bool.not_eq_true]
    · simp only [Entries.among_cons_of_not_mem hKnown, hKnown, false_and, not_false_eq_true,
        true_and]
  rw [ReadFrom, hFieldsKept, hContainerKept, hDistinctCons]
  constructor
  · rintro ⟨⟨hOnce, hDistinct⟩, fields, container, hNested, hNestedContainer, rfl⟩
    refine ⟨_, ⟨hDistinct, fields, container, hNested, hNestedContainer, rfl⟩, ?_⟩
    rw [Parts.add_ofWritten hFields hContainer, if_neg hOnce]
  · rintro ⟨_, ⟨hDistinct, fields, container, hNested, hNestedContainer, rfl⟩, hStep⟩
    rw [Parts.add_ofWritten hFields hContainer] at hStep
    split at hStep
    case isTrue => cases hStep
    case isFalse hOnce =>
      cases hStep
      exact ⟨⟨hOnce, hDistinct⟩, fields, container, hNested, hNestedContainer, rfl⟩

end Step

/-- The entries of a node are read entry by entry, from the last to the first. -/
theorem decodeParts_eq_ok_iff {written : Entries Value} {parts : Parts} :
    decodeParts (Datum.ofEntries written) = .ok parts ↔ Parts.ReadFrom written parts := by
  induction written generalizing parts with
  | nil =>
      rw [Parts.readFrom_nil_iff]
      show Except.ok ({} : Parts) = .ok parts ↔ _
      rw [Except.ok.injEq, eq_comm]
  | cons entry rest ih =>
      obtain ⟨name, v⟩ := entry
      have hName : Datum.text (.atom (.string name)) = .ok name := rfl
      rw [Datum.ofEntries, decodeParts, hName]
      simp only [bind_eq_ok_iff, Except.ok.injEq, exists_eq_left', ih]
      by_cases hFields : name = "fields"
      · subst hFields
        simp only [if_true, bind_eq_ok_iff]
        exact Parts.readFrom_fields_iff.symm
      by_cases hContainer : name = "container"
      · subst hContainer
        simp only [if_neg hFields, if_true, bind_eq_ok_iff]
        exact Parts.readFrom_container_iff.symm
      simp only [if_neg hFields, if_neg hContainer, Parts.readFrom_other_iff hFields hContainer]

end FieldNode

/-- What is read of the slots of a node. -/
structure FieldAttributes.ReadFrom (slots : Slots) (node : FieldAttributes) : Prop where
  identifier : slots.optional "identifier" Datum.text = .ok node.identifier
  type : slots.optional "type" Datum.text = .ok node.type
  label : slots.optional "label" Datum.text = .ok node.label
  description : slots.optional "description" Datum.text = .ok node.description
  useExistingField : slots.withDefault "useExistingField" false Datum.bool =
    .ok node.useExistingField
  prefixField : slots.optional "prefixField" Datum.bool = .ok node.prefixField
  items : slots.withDefault "items" [] (Datum.listOf FieldItem.decode) = .ok node.items
  displayCond : slots.optional "displayCond" Datum.value = .ok node.displayCond
  table : slots.optional "table" Datum.text = .ok node.table
  foreignField : slots.optional "foreignField" Datum.text = .ok node.foreignField
  shareAcrossTables : slots.withDefault "shareAcrossTables" false Datum.bool =
    .ok node.shareAcrossTables
  shareAcrossFields : slots.withDefault "shareAcrossFields" false Datum.bool =
    .ok node.shareAcrossFields
  linkTitle : slots.optional "linkTitle" Datum.text = .ok node.linkTitle

namespace FieldNode

/-- What a node that can be read is written as, and what is read of it. -/
structure ReadFrom (written : Entries Value) (node : FieldNode) : Prop where
  distinct : Entries.Distinct (Entries.among knownNames written)
  attributes : node.toFieldAttributes.ReadFrom (Slots.ofWritten FieldAttributes.names written)
  config : ∃ pairs, (Entries.mapValues Datum.ofValue (Entries.outside knownNames written)).mapM
    Datum.settleEntry = .ok pairs ∧ node.config = Entries.ofList pairs
  fields : ∃ nodes, NestedFrom (written.lookup "fields") nodes ∧ node.fields = nodes.getD []
  container : ∃ nodes, NestedFrom (written.lookup "container") nodes ∧
    node.container = nodes.getD []

theorem decode_object_eq_ok_iff {written : Entries Value} {node : FieldNode} :
    decode (.ofValue (.object written)) = .ok node ↔ ReadFrom written node := by
  show (decodeParts (Datum.ofEntries written) >>= fun parts => ofParts parts) = .ok node ↔ _
  rw [bind_eq_ok_iff]
  simp only [decodeParts_eq_ok_iff, ofParts, bind_eq_ok_iff]
  -- The chain reads one attribute after another, in the order of the structure.
  constructor
  · rintro ⟨_, ⟨hDistinct, fields, container, hFields, hContainer, rfl⟩, _, hIdentifier, _, hType,
      _, hLabel, _, hDescription, _, hExisting, _, hPrefix, _, hItems, _, hCond, _, hTable, _,
      hForeign, _, hTables, _, hShared, _, hLink, pairs, hPairs, hMade⟩
    cases hMade
    exact ⟨hDistinct, ⟨hIdentifier, hType, hLabel, hDescription, hExisting, hPrefix, hItems, hCond,
      hTable, hForeign, hTables, hShared, hLink⟩, ⟨pairs, hPairs, rfl⟩, ⟨fields, hFields, rfl⟩,
      ⟨container, hContainer, rfl⟩⟩
  · rintro ⟨hDistinct, hNode, ⟨pairs, hPairs, hConfig⟩, ⟨fields, hFields, hFieldsMade⟩,
      container, hContainer, hContainerMade⟩
    refine ⟨_, ⟨hDistinct, fields, container, hFields, hContainer, rfl⟩, _, hNode.identifier, _,
      hNode.type, _, hNode.label, _, hNode.description, _, hNode.useExistingField, _,
      hNode.prefixField, _, hNode.items, _, hNode.displayCond, _, hNode.table, _,
      hNode.foreignField, _, hNode.shareAcrossTables, _, hNode.shareAcrossFields, _,
      hNode.linkTitle, pairs, hPairs, ?_⟩
    obtain ⟨attributes, nodeFields, nodeContainer⟩ := node
    obtain ⟨⟩ := attributes
    cases hConfig
    cases hFieldsMade
    cases hContainerMade
    rfl

end FieldNode

end ContentSchema
