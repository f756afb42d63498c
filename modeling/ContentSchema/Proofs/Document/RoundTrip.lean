import ContentSchema.Document.Basic
import ContentSchema.Proofs.Document.Fields
import ContentSchema.Proofs.Document.NamedSettings

/-!
# Documents as written

Writing a document and reading it are two descriptions of one format.  They meet at the
documents that can have been read: whatever is read of a value is one of them, and each
of them is read from what is written of it.

* `SchemaDocument.normal_of_decode` is the way from a value to such a document.
* `SchemaDocument.decode_encode` is the way from such a document through its written form.
* `SchemaDocument.exists_decode_iff` says that these documents are all that is read of
  JSON values.
* `SchemaDocument.settings_of_decode` says which table settings are read.
* `SchemaDocument.roundTrips_of_decode` is the round trip from any value that can be read.

A document that was made in another way is NOT always read again: a node may carry a
display condition that is null, or configuration under a name that the node knows.
-/

namespace ContentSchema

open Datum (Slots Kept)

namespace SchemaDocument

theorem nodup_fieldNames : fieldNames.Nodup := by decide

/-- No attribute of a document is a table setting. -/
theorem not_mem_fieldNames_of_mem_names {name : String} (hName : name ∈ TableSettings.names) :
    name ∉ fieldNames := by
  have hApart : ∀ name ∈ TableSettings.names, name ∉ fieldNames := by decide
  exact hApart name hName

/-! ## What is read -/

/-- What is read of the known entries of a document and of the others. -/
structure ReadFrom (slots : Slots) (others : List (String × Datum)) (document : SchemaDocument) :
    Prop where
  name : slots.required "name" Datum.text = .ok document.name
  kind : slots.withDefault "kind" .contentElement ContentKind.decode = .ok document.kind
  table : slots.optional "table" Datum.text = .ok document.table
  typeField : slots.optional "typeField" Datum.text = .ok document.typeField
  typeName : ∃ v, slots.optional "typeName" Datum.value = .ok v ∧
    document.typeName = v.bind typeNameOf
  title : slots.optional "title" Datum.text = .ok document.title
  description : slots.optional "description" Datum.text = .ok document.description
  prefixFields : slots.withDefault "prefixFields" true Datum.bool = .ok document.prefixFields
  prefixStyle : slots.withDefault "prefixType" .full PrefixStyle.decode = .ok document.prefixStyle
  vendorPrefix : slots.optional "vendorPrefix" Datum.text = .ok document.vendorPrefix
  priority : slots.withDefault "priority" 0 Datum.int32 = .ok document.priority
  group : slots.optional "group" Datum.text = .ok document.group
  icon : slots.optional "icon" Datum.text = .ok document.icon
  languageFile : slots.optional "languageFile" Datum.text = .ok document.languageFile
  hostExtension : slots.optional "hostExtension" Datum.text = .ok document.hostExtension
  fields : slots.withDefault "fields" [] FieldNode.decodeList = .ok document.fields
  settings : TableSettings.decodeEntries others = .ok document.settings

/-- The type of an entry that is passed on. -/
def typeEntry (entry : String × Datum) : Except DecodeError (String × Datum) :=
  Datum.expect "any value" (fun d => d.typed?.map fun d => (entry.1, d)) entry.2

/-- Written entries are passed on as they are. -/
theorem mapM_typeEntry (written : Entries Value) :
    (Entries.mapValues Datum.ofValue written).mapM typeEntry =
      .ok (Entries.mapValues Datum.ofValue written) := by
  have hEach := @mapM_map_eq_ok DecodeError (String × Datum) _ id typeEntry
    (Entries.mapValues Datum.ofValue written) fun entry hEntry => by
      obtain ⟨⟨name, v⟩, _, rfl⟩ := List.mem_map.mp hEntry
      refine Datum.expect_eq_ok_iff.mpr ?_
      show (Datum.typed? (.ofValue v)).map _ = _
      rw [Datum.typed?_ofValue]
      rfl
  rwa [List.map_id] at hEach

theorem decode_eq_ok_iff {v : Value} {document : SchemaDocument} :
    decode (.ofValue v) = .ok document ↔ ∃ written, v = .object written ∧
      Entries.Distinct (Entries.among fieldNames written) ∧
        ReadFrom (Slots.ofWritten fieldNames written)
          (Entries.mapValues Datum.ofValue (Entries.outside fieldNames written)) document := by
  rw [decode]
  simp only [bind_eq_ok_iff, Datum.entries_ofValue_eq_ok_iff, Prod.exists]
  constructor
  · rintro ⟨_, ⟨written, rfl, rfl⟩, found, others, hSplit, typed, hTyped, _, hName, _, hKind, _,
      hTable, _, hTypeField, typeName, hTypeName, _, hTitle, _, hDescription, _, hPrefix, _, hStyle,
      _, hVendor, _, hPriority, _, hGroup, _, hIcon, _, hFile, _, hHost, _, hFields, _, hSettings,
      hMade⟩
    obtain ⟨hDistinct, rfl, rfl⟩ := Datum.splitKnown_ofEntries_iff.mp hSplit
    -- Settling types changes nothing that was written, so the settings see what is there.
    cases (mapM_typeEntry _).symm.trans hTyped
    cases hMade
    exact ⟨written, rfl, hDistinct, hName, hKind, hTable, hTypeField, ⟨typeName, hTypeName, rfl⟩,
      hTitle, hDescription, hPrefix, hStyle, hVendor, hPriority, hGroup, hIcon, hFile, hHost,
      hFields, hSettings⟩
  · rintro ⟨written, rfl, hDistinct, hRead⟩
    obtain ⟨typeName, hTypeName, hMade⟩ := hRead.typeName
    refine ⟨_, ⟨written, rfl, rfl⟩, _, _, Datum.splitKnown_ofEntries_iff.mpr ⟨hDistinct, rfl, rfl⟩,
      _, mapM_typeEntry _, _, hRead.name, _, hRead.kind, _, hRead.table, _, hRead.typeField, _,
      hTypeName, _, hRead.title, _, hRead.description, _, hRead.prefixFields, _, hRead.prefixStyle,
      _, hRead.vendorPrefix, _, hRead.priority, _, hRead.group, _, hRead.icon, _,
      hRead.languageFile, _, hRead.hostExtension, _, hRead.fields, _, hRead.settings, ?_⟩
    obtain ⟨⟩ := document
    cases hMade
    rfl

/-! ## What is written -/

/-- A document that can have been read: its priority fits thirty-two bits, and all nodes in
it can have been read. -/
structure Normal (document : SchemaDocument) : Prop where
  priority : -0x80000000 ≤ document.priority ∧ document.priority < 0x80000000
  fields : ∀ node ∈ document.fields, node.Normal

/-- The attributes of a document by name, each with its value if it has one. -/
def slots (document : SchemaDocument) : List (String × Option Value) :=
  [("name", some (.string document.name)),
    ("kind", some (.string document.kind.word)),
    ("table", document.table.map Value.string),
    ("typeField", document.typeField.map Value.string),
    ("typeName", document.typeName.map Value.string),
    ("title", document.title.map Value.string),
    ("description", document.description.map Value.string),
    ("prefixFields", some (.bool document.prefixFields)),
    ("prefixType", some (.string document.prefixStyle.word)),
    ("vendorPrefix", document.vendorPrefix.map Value.string),
    ("priority", some (.int document.priority)),
    ("group", document.group.map Value.string),
    ("icon", document.icon.map Value.string),
    ("languageFile", document.languageFile.map Value.string),
    ("hostExtension", document.hostExtension.map Value.string),
    ("fields", some (.list (document.fields.map FieldNode.encode)))]

theorem encode_eq (document : SchemaDocument) :
    document.encode =
      .object (Entries.present document.slots ++ document.settings.encodeEntries) := by
  simp only [encode, slots, FieldNode.encodeAll_eq_map, Value.textEntry?, Value.present_cons,
    Entries.present_nil, List.append_assoc, List.cons_append, List.nil_append]
  rfl

/-- No attribute of a document is a table setting, so the settings can come after them. -/
theorem kept_settings (settings : TableSettings) : Kept fieldNames settings.encodeEntries where
  distinct := settings.distinct_encodeEntries
  unknown := fun _ hName =>
    not_mem_fieldNames_of_mem_names (TableSettings.mem_names_of_mem_keys hName)
  json := settings.isJson_of_mem_encodeEntries

theorem ContentKind.decode_word (kind : ContentKind) :
    ContentKind.decode (.ofValue (.string kind.word)) = .ok kind := by
  cases kind <;> decide

theorem PrefixStyle.decode_word (style : PrefixStyle) :
    PrefixStyle.decode (.ofValue (.string style.word)) = .ok style := by
  cases style <;> decide

/-- A document that can have been read is read from what is written of it. -/
theorem decode_encode {document : SchemaDocument} (hNormal : document.Normal) :
    decode (.ofValue document.encode) = .ok document := by
  have hKept := kept_settings document.settings
  have hLookup {name : String} {v : Option Value} (hSlot : (name, v) ∈ document.slots) :
      (Entries.present document.slots ++ document.settings.encodeEntries).lookup name = v :=
    hKept.lookup_append document.slots nodup_fieldNames rfl hSlot
  have hText {name : String} {text : Option String} (hName : name ∈ fieldNames)
      (hSlot : (name, text.map Value.string) ∈ document.slots) :=
    Slots.optional_eq_ok Value.string hName (hLookup hSlot)
      fun s _ => ⟨nofun, Datum.text_ofValue_string s⟩
  rw [encode_eq]
  refine decode_eq_ok_iff.mpr ⟨_, rfl,
    Entries.distinct_among (hKept.distinct_append document.slots nodup_fieldNames rfl), ?_⟩
  rw [hKept.outside_append document.slots rfl]
  exact {
    name := Slots.required_eq_ok Value.string (by decide) (hLookup (by simp [slots]))
      (Datum.text_ofValue_string document.name)
    kind := Slots.withDefault_eq_ok (fun kind => .string (ContentKind.word kind)) (by decide)
      (hLookup (by simp [slots])) (ContentKind.decode_word document.kind)
    table := hText (by decide) (by simp [slots])
    typeField := hText (by decide) (by simp [slots])
    typeName := ⟨document.typeName.map Value.string,
      Slots.value_eq_ok (by decide) (hLookup (by simp [slots])) fun v hName => by
        obtain ⟨name, -, rfl⟩ := Option.map_eq_some_iff.mp hName
        exact ⟨nofun, trivial, trivial⟩,
      by cases document.typeName <;> rfl⟩
    title := hText (by decide) (by simp [slots])
    description := hText (by decide) (by simp [slots])
    prefixFields := Slots.withDefault_eq_ok Value.bool (by decide) (hLookup (by simp [slots]))
      (Datum.bool_ofValue_bool document.prefixFields)
    prefixStyle := Slots.withDefault_eq_ok (fun style => .string (PrefixStyle.word style))
      (by decide) (hLookup (by simp [slots])) (PrefixStyle.decode_word document.prefixStyle)
    vendorPrefix := hText (by decide) (by simp [slots])
    priority := Slots.withDefault_eq_ok Value.int (by decide) (hLookup (by simp [slots]))
      (Datum.int32_eq_ok_iff.mpr ⟨rfl, hNormal.priority⟩)
    group := hText (by decide) (by simp [slots])
    icon := hText (by decide) (by simp [slots])
    languageFile := hText (by decide) (by simp [slots])
    hostExtension := hText (by decide) (by simp [slots])
    fields := Slots.withDefault_eq_ok (fun nodes => .list (nodes.map FieldNode.encode)) (by decide)
      (hLookup (by simp [slots])) (FieldNode.decodeList_map_encode fun node hNode =>
        FieldNode.decode_encode (hNormal.fields node hNode))
    settings := TableSettings.decodeEntries_encodeEntries document.settings }

/-- What is written of a document that can have been read is a JSON value. -/
theorem isJson_encode {document : SchemaDocument} (hNormal : document.Normal) :
    document.encode.IsJson := by
  have hAlways {v : Value} (hJson : v.IsJson) : Value.HeldJson (some v) := by
    rintro _ ⟨⟩
    exact hJson
  have hFields : (Value.list (document.fields.map FieldNode.encode)).IsJson :=
    Value.isJson_list_iff.mpr (List.forall_mem_map.mpr fun node hNode =>
      FieldNode.isJson_encode (hNormal.fields node hNode))
  rw [encode_eq]
  refine (kept_settings document.settings).isJson_append document.slots nodup_fieldNames rfl ?_
  simp only [slots, List.forall_mem_cons]
  exact ⟨hAlways ⟨trivial, trivial⟩, hAlways ⟨trivial, trivial⟩, Value.heldJson_text _,
    Value.heldJson_text _, Value.heldJson_text _, Value.heldJson_text _, Value.heldJson_text _,
    hAlways ⟨trivial, trivial⟩, hAlways ⟨trivial, trivial⟩, Value.heldJson_text _,
    hAlways ⟨trivial, trivial⟩, Value.heldJson_text _, Value.heldJson_text _,
    Value.heldJson_text _, Value.heldJson_text _, hAlways hFields, List.forall_mem_nil _⟩

/-- Where every double is a number, what is read is a document that can have been read. -/
theorem normal_of_decode {v : Value} {document : SchemaDocument} (hFinite : v.Finite)
    (hRead : decode (.ofValue v) = .ok document) : document.Normal := by
  obtain ⟨written, rfl, -, hDocument⟩ := decode_eq_ok_iff.mp hRead
  constructor
  · obtain hDefault | ⟨v, -, hInt⟩ := Slots.of_withDefault (by decide) hDocument.priority
    · rw [hDefault]
      decide
    · exact (Datum.int32_eq_ok_iff.mp hInt).2
  · obtain hDefault | ⟨v, hWritten, hList⟩ := Slots.of_withDefault (by decide) hDocument.fields
    · rw [hDefault]
      simp
    · exact FieldNode.normal_of_lookup hFinite hWritten hList

/-- The documents that are read of JSON values are exactly the normal ones: whatever a normal
document says, there is a way to write it. -/
theorem exists_decode_iff {document : SchemaDocument} :
    (∃ v : Value, v.IsJson ∧ decode (.ofValue v) = .ok document) ↔ document.Normal := by
  constructor
  · rintro ⟨v, hJson, hRead⟩
    exact normal_of_decode hJson.finite hRead
  · intro hNormal
    exact ⟨document.encode, isJson_encode hNormal, decode_encode hNormal⟩

/-- The table settings of a document are read by name among all that was written. -/
theorem settings_of_decode {written : Entries Value} {document : SchemaDocument}
    (hRead : decode (.ofValue (.object written)) = .ok document) :
    TableSettings.ReadFrom (Entries.mapValues Datum.ofValue written) document.settings := by
  obtain ⟨_, hObject, -, hDocument⟩ := decode_eq_ok_iff.mp hRead
  cases hObject
  obtain ⟨-, hSettings⟩ := TableSettings.decodeEntries_eq_ok_iff.mp hDocument.settings
  refine hSettings.congr fun name hName => ?_
  rw [Entries.lookup_mapValues, Entries.lookup_mapValues,
    Entries.lookup_outside (not_mem_fieldNames_of_mem_names hName)]

/-- A document that is read from a value is written as a JSON value from which it is read
again.  Its table settings are those that were written, each under its own name.  Whatever
a node or an item says beyond the names it knows is part of it: it is kept as it was
written, in order and with its nulls.  All doubles of a JSON value are numbers, and nothing
else is asked of the value. -/
theorem roundTrips_of_decode {v : Value} {document : SchemaDocument} (hFinite : v.Finite)
    (hRead : decode (.ofValue v) = .ok document) :
    document.encode.IsJson ∧ decode (.ofValue document.encode) = .ok document ∧
      (∃ written, v = .object written ∧
        TableSettings.ReadFrom (Entries.mapValues Datum.ofValue written) document.settings) ∧
      (∀ written node, (Value.object written).IsJson →
        FieldNode.decode (.ofValue (.object written)) = .ok node →
          node.config = Entries.outside FieldNode.knownNames written) ∧
      ∀ written item, (Value.object written).IsJson →
        FieldItem.decode (.ofValue (.object written)) = .ok item →
          item.extra = Entries.outside FieldItem.attributeNames written := by
  have hNormal := normal_of_decode hFinite hRead
  obtain ⟨written, rfl, -⟩ := decode_eq_ok_iff.mp hRead
  exact ⟨isJson_encode hNormal, decode_encode hNormal, ⟨written, rfl, settings_of_decode hRead⟩,
    fun _ _ hJson hNode => FieldNode.config_of_decode hJson hNode,
    fun _ _ hJson hItem => FieldItem.extra_of_decode hJson hItem⟩

/-- An item with foreign entries, one of them null. -/
def hintSource : Entries Value :=
  [("hint", .null), ("value", .double ⟨0x3ff8000000000000⟩), ("apple", .bool true)]

/-- A collection with foreign entries, one of them null, and with nodes within nodes. -/
def chaptersSource : Entries Value :=
  [("zebra", .null),
    ("type", .string "Collection"),
    ("labelField", .string "title"),
    ("prefixField", .null),
    ("items", .list [.object hintSource]),
    ("fields", .list [.object [("type", .string "FlexForm"), ("container", .list [
      .object [("fields", .list [.object [("useExistingField", .bool false)]])]])]]),
    ("displayCond", .object [("OR", .list [.null])])]

/-- A document that uses the rare parts of the format: lists where a text would do, nulls
and foreign entries. -/
def handbookSource : Value :=
  .object [
    ("sortField", .list [.object [("identifier", .string "starts"), ("order", .null)],
      .list [.string "title"]]),
    ("typeName", .list [.int 3, .bool true]),
    ("name", .string "acme/handbook"),
    ("kind", .string "record-type"),
    ("group", .null),
    ("unlisted", .null),
    ("labelField", .list [.string "title", .string "starts"]),
    ("languageAware", .bool false),
    ("sortable", .null),
    ("fields", .list [.object chaptersSource])]

/-- The handbook is read and read again from what is written of it.  Its labels and what it
says of languages are those that were written, and its collection and the item of that keep
what is foreign to them. -/
theorem roundTrips_of_decode_handbook :
    handbookSource.Finite ∧ (Value.object chaptersSource).IsJson ∧
      (Value.object hintSource).IsJson ∧
      (∃ document, decode (.ofValue handbookSource) = .ok document ∧
        document.typeName = some "[3,true]" ∧ document.encode.IsJson ∧
          decode (.ofValue document.encode) = .ok document ∧
            document.settings.labelField = some (.multiple ["title", "starts"]) ∧
              document.settings.capabilities.declared .languageAware = some false) ∧
      (∃ node, FieldNode.decode (.ofValue (.object chaptersSource)) = .ok node ∧
        node.config = [("zebra", .null), ("labelField", .string "title")]) ∧
      ∃ item, FieldItem.decode (.ofValue (.object hintSource)) = .ok item ∧
        item.extra = [("hint", .null), ("apple", .bool true)] := by
  have hNumber : Double.isFinite ⟨0x3ff8000000000000⟩ = true := by decide
  have hFinite : handbookSource.Finite := by
    simp [handbookSource, chaptersSource, hintSource, Value.Finite, Value.EntriesFinite,
      Value.ItemsFinite, hNumber]
  have hHint : (Value.object hintSource).IsJson := by
    refine ⟨⟨by decide, ?_⟩, ?_⟩
    · simp [hintSource, Value.EntriesWellFormed, Value.WellFormed]
    · simp [hintSource, Value.EntriesFinite, Value.Finite, hNumber]
  have hChapters : (Value.object chaptersSource).IsJson := by
    refine ⟨⟨by decide, ?_⟩, ?_⟩
    · simp [chaptersSource, hintSource, Value.EntriesWellFormed, Value.ItemsWellFormed,
        Value.WellFormed, Entries.Distinct]
    · simp [chaptersSource, hintSource, Value.EntriesFinite, Value.ItemsFinite, Value.Finite,
        hNumber]
  obtain ⟨document, hRead, hName⟩ : ∃ document,
      decode (.ofValue handbookSource) = .ok document ∧ document.typeName = some "[3,true]" :=
    ⟨_, rfl, rfl⟩
  obtain ⟨node, hNode⟩ : ∃ node,
      FieldNode.decode (.ofValue (.object chaptersSource)) = .ok node := ⟨_, rfl⟩
  obtain ⟨item, hItem⟩ : ∃ item,
      FieldItem.decode (.ofValue (.object hintSource)) = .ok item := ⟨_, rfl⟩
  obtain ⟨hJson, hAgain, ⟨_, hObject, hSettings⟩, hConfig, hExtra⟩ :=
    roundTrips_of_decode hFinite hRead
  cases hObject
  have hLabels : document.settings.labelField = some (.multiple ["title", "starts"]) :=
    Except.ok.inj (hSettings.plain.labelField.symm.trans rfl)
  have hLanguages : document.settings.capabilities.declared .languageAware = some false :=
    Except.ok.inj ((hSettings.capabilities .languageAware).symm.trans rfl)
  exact ⟨hFinite, hChapters, hHint,
    ⟨document, hRead, hName, hJson, hAgain, hLabels, hLanguages⟩,
    ⟨node, hNode, hConfig chaptersSource node hChapters hNode⟩,
    ⟨item, hItem, hExtra hintSource item hHint hItem⟩⟩

end SchemaDocument
end ContentSchema
