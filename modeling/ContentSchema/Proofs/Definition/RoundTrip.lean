import ContentSchema.Definition.Codec
import ContentSchema.Proofs.Datum.Records
import ContentSchema.Proofs.Definition.Precedence
import ContentSchema.Proofs.Document.RoundTrip

/-!
# Definitions as written

A compiled definition is written attribute by attribute, and every attribute is read again
as it was, with one exception: a display condition that is null is read as none.

* `TableDefinition.HoldsJson` says which definitions a JSON text can hold.
* `TableDefinition.decode_encode` says what such a definition is read as again.
* `TableDefinition.isJson_encode` says that what is written of it is a JSON value.
* `TableDefinition.withoutNull_eq_self_iff` says when that is the definition itself.

Where a definition comes from does NOT matter here; that only such definitions are compiled is
a matter of runs.  As for documents, what is required of conditions is a parameter.
-/

namespace ContentSchema

variable {Admits : Value → Prop}

/-! ## Types -/

theorem FieldKind.decode_word (kind : FieldKind) :
    decode (.ofValue (.string kind.word)) = .ok kind :=
  Datum.oneOf_word (by cases kind <;> decide)

theorem StorageKind.decode_word (storage : StorageKind) :
    decode (.ofValue (.string storage.word)) = .ok storage :=
  Datum.oneOf_word (by cases storage <;> decide)

theorem ItemLabels.decode_word (labels : ItemLabels) :
    decode (.ofValue (.string labels.word)) = .ok labels :=
  Datum.oneOf_word (by cases labels <;> decide)

namespace TypeDescriptor

/-- The attributes of a type by name. -/
def slots (type : TypeDescriptor) : List (String × Option Value) :=
  [("name", some (.string type.name)),
    ("kind", some (.string type.kind.word)),
    ("tca", some (.string type.storage.word)),
    ("searchable", some (.bool type.searchable)),
    ("renderable", some (.bool type.renderable)),
    ("relational", some (.bool type.relational)),
    ("items", some (.string type.items.word))]

theorem tabulates_slots (type : TypeDescriptor) : Datum.Tabulates fieldNames type.slots :=
  ⟨rfl, by decide⟩

/-- A type is read from what is written of it. -/
theorem decode_encode (type : TypeDescriptor) : decode (.ofValue type.encode) = .ok type := by
  have hTable := type.tabulates_slots
  refine bind_eq_ok_iff.mpr ⟨_, hTable.slots_eq, ?_⟩
  simp only [bind_eq_ok_iff]
  exact ⟨_, hTable.requiredText (by simp [slots]),
    _, hTable.required (by simp [slots]) type.kind.decode_word,
    _, hTable.required (by simp [slots]) type.storage.decode_word,
    _, hTable.requiredFlag (by simp [slots]),
    _, hTable.requiredFlag (by simp [slots]),
    _, hTable.requiredFlag (by simp [slots]),
    _, hTable.required (by simp [slots]) type.items.decode_word, rfl⟩

theorem isJson_encode (type : TypeDescriptor) : type.encode.IsJson := by
  refine type.tabulates_slots.isJson ?_
  simp only [slots, List.forall_mem_cons]
  exact ⟨Value.heldJson_string _, Value.heldJson_string _, Value.heldJson_string _,
    Value.heldJson_flag _, Value.heldJson_flag _, Value.heldJson_flag _,
    Value.heldJson_string _, List.forall_mem_nil _⟩

end TypeDescriptor

/-! ## Display entries -/

theorem ShowItem.decode_encode (item : ShowItem) : decode (.ofValue item.encode) = .ok item := by
  cases item <;> rfl

theorem PaletteItem.decode_encode (item : PaletteItem) :
    decode (.ofValue item.encode) = .ok item := by
  cases item <;> rfl

theorem ShowKind.isJson_encode (kind : ShowKind) (identifier : Option String) :
    (encode kind identifier).IsJson :=
  Value.isJson_cons_textEntry? (by decide) kind.word identifier

theorem ShowItem.isJson_encode (item : ShowItem) : item.encode.IsJson := by
  cases item <;> exact ShowKind.isJson_encode _ _

theorem PaletteItem.isJson_encode (item : PaletteItem) : item.encode.IsJson := by
  cases item <;> exact ShowKind.isJson_encode _ _

/-! ## Palettes -/

namespace PaletteDefinition

/-- The attributes of a palette by name, each with its value if it has one. -/
def slots (palette : PaletteDefinition) : List (String × Option Value) :=
  [("identifier", some (.string palette.identifier)),
    ("label", palette.label.map Value.string),
    ("description", palette.description.map Value.string),
    ("label_path", some (.string palette.labelPath)),
    ("description_path", palette.descriptionPath.map Value.string),
    ("items", some (.list (palette.items.map PaletteItem.encode)))]

theorem tabulates_slots (palette : PaletteDefinition) :
    Datum.Tabulates fieldNames palette.slots :=
  ⟨rfl, by decide⟩

theorem encode_eq (palette : PaletteDefinition) :
    palette.encode = .object (Entries.present palette.slots) := by
  simp only [encode, slots, Value.textEntry?, Value.present_cons, Entries.present_nil,
    List.append_assoc, List.cons_append, List.nil_append, List.append_nil]
  rfl

/-- A palette is read from what is written of it. -/
theorem decode_encode (palette : PaletteDefinition) :
    decode (.ofValue palette.encode) = .ok palette := by
  have hTable := palette.tabulates_slots
  rw [encode_eq]
  refine bind_eq_ok_iff.mpr ⟨_, hTable.slots_eq, ?_⟩
  simp only [bind_eq_ok_iff]
  exact ⟨_, hTable.requiredText (by simp [slots]),
    _, hTable.text (by simp [slots]), _, hTable.text (by simp [slots]),
    _, hTable.requiredText (by simp [slots]),
    _, hTable.text (by simp [slots]),
    _, hTable.required (by simp [slots])
      (Datum.listOf_ofValue_map fun item _ => item.decode_encode), rfl⟩

theorem isJson_encode (palette : PaletteDefinition) : palette.encode.IsJson := by
  rw [encode_eq]
  refine palette.tabulates_slots.isJson ?_
  simp only [slots, List.forall_mem_cons]
  exact ⟨Value.heldJson_string _, Value.heldJson_text _, Value.heldJson_text _,
    Value.heldJson_string _, Value.heldJson_text _,
    Value.heldJson_list fun item _ => item.isJson_encode, List.forall_mem_nil _⟩

end PaletteDefinition

/-! ## Fields -/

namespace CompiledField

/-- A JSON text can hold what is free-form in the field, and a condition has what is required
of conditions. -/
structure HoldsJson (Admits : Value → Prop) (field : CompiledField) : Prop where
  displayCond : ∀ v, field.displayCond = some v → v.IsJson ∧ Admits v
  config : (Value.object field.config).IsJson

/-- The field without a condition that is null. -/
def withoutNull (field : CompiledField) : CompiledField :=
  { field with displayCond := Value.unlessNull field.displayCond }

theorem withoutNull_eq_self_iff {field : CompiledField} :
    field.withoutNull = field ↔ field.displayCond ≠ some .null := by
  rw [← Value.unlessNull_eq_self_iff]
  constructor
  · exact congrArg displayCond
  · intro hSame
    rw [withoutNull, hSame]

/-- The attributes of a field by name, each with its value if it has one. -/
def slots (field : CompiledField) : List (String × Option Value) :=
  [("unique_identifier", some (.string field.uniqueIdentifier)),
    ("identifier", some (.string field.identifier)),
    ("field_type", some field.fieldType.encode),
    ("label", field.label.map Value.string),
    ("description", field.description.map Value.string),
    ("label_path", some (.string field.labelPath)),
    ("description_path", field.descriptionPath.map Value.string),
    ("use_existing_field", some (.bool field.useExistingField)),
    ("display_cond", field.displayCond),
    ("config", some (.object field.config))]

theorem tabulates_slots (field : CompiledField) : Datum.Tabulates fieldNames field.slots :=
  ⟨rfl, by decide⟩

theorem encode_eq (field : CompiledField) :
    field.encode = .object (Entries.present field.slots) := by
  simp only [encode, slots, Value.textEntry?, Value.present_cons, Entries.present_nil,
    List.append_assoc, List.cons_append, List.nil_append, List.append_nil]
  rfl

/-- A field is read from what is written of it, except for a condition that is null. -/
theorem decode_encode {field : CompiledField} (hField : field.HoldsJson Admits) :
    decode (.ofValue field.encode) = .ok field.withoutNull := by
  have hTable := field.tabulates_slots
  have hConfig : Datum.mapOf Datum.value (.ofValue (.object field.config)) = .ok field.config := by
    obtain ⟨hDistinct, hEntries⟩ := Value.isJson_object_iff.mp hField.config
    have hRead := @Datum.mapOf_mapValues Value Datum.value id id field.config hDistinct
      fun entry hEntry => Datum.value_ofValue (hEntries entry hEntry)
    simpa [Entries.mapValues] using hRead
  rw [encode_eq]
  refine bind_eq_ok_iff.mpr ⟨_, hTable.slots_eq, ?_⟩
  simp only [bind_eq_ok_iff]
  exact ⟨_, hTable.requiredText (by simp [slots]),
    _, hTable.requiredText (by simp [slots]),
    _, hTable.required (by simp [slots]) field.fieldType.decode_encode,
    _, hTable.text (by simp [slots]), _, hTable.text (by simp [slots]),
    _, hTable.requiredText (by simp [slots]),
    _, hTable.text (by simp [slots]),
    _, hTable.requiredFlag (by simp [slots]),
    _, hTable.value (by simp [slots]) fun v hCond => (hField.displayCond v hCond).1,
    _, hTable.required (by simp [slots]) hConfig, rfl⟩

theorem isJson_encode {field : CompiledField} (hField : field.HoldsJson Admits) :
    field.encode.IsJson := by
  rw [encode_eq]
  refine field.tabulates_slots.isJson ?_
  simp only [slots, List.forall_mem_cons]
  exact ⟨Value.heldJson_string _, Value.heldJson_string _,
    Value.heldJson_some field.fieldType.isJson_encode, Value.heldJson_text _,
    Value.heldJson_text _, Value.heldJson_string _, Value.heldJson_text _, Value.heldJson_flag _,
    fun v hCond => (hField.displayCond v hCond).1, Value.heldJson_some hField.config,
    List.forall_mem_nil _⟩

end CompiledField

/-! ## Content types -/

namespace ContentTypeIcon

theorem decode_encode (icon : ContentTypeIcon) : decode (.ofValue icon.encode) = .ok icon := by
  obtain ⟨identifier, source⟩ := icon
  cases source <;> rfl

theorem isJson_encode (icon : ContentTypeIcon) : icon.encode.IsJson :=
  Value.isJson_cons_textEntry? (by decide) icon.identifier icon.source

end ContentTypeIcon

namespace ContentType

/-- A JSON text can hold what is free-form in the fields that the content type overrides, and
its priority fits thirty-two bits. -/
structure HoldsJson (Admits : Value → Prop) (contentType : ContentType) : Prop where
  overrideColumns : ∀ field ∈ contentType.overrideColumns, field.HoldsJson Admits
  priority : -0x80000000 ≤ contentType.priority ∧ contentType.priority < 0x80000000

/-- The content type without conditions that are null. -/
def withoutNull (contentType : ContentType) : ContentType :=
  { contentType with
    overrideColumns := contentType.overrideColumns.map CompiledField.withoutNull }

theorem withoutNull_eq_self_iff {contentType : ContentType} :
    contentType.withoutNull = contentType ↔
      ∀ field ∈ contentType.overrideColumns, field.displayCond ≠ some .null := by
  simp only [← CompiledField.withoutNull_eq_self_iff]
  rw [← Entries.map_eq_self_iff]
  constructor
  · exact congrArg overrideColumns
  · intro hSame
    rw [withoutNull, hSame]

/-- The attributes of a content type by name, each with its value if it has one. -/
def slots (contentType : ContentType) : List (String × Option Value) :=
  [("identifier", some (.string contentType.identifier)),
    ("table", some (.string contentType.table)),
    ("kind", some (.string contentType.kind.word)),
    ("type_name", contentType.typeName.map Value.string),
    ("title", contentType.title.map Value.string),
    ("description", contentType.description.map Value.string),
    ("title_path", contentType.titlePath.map Value.string),
    ("description_path", contentType.descriptionPath.map Value.string),
    ("show_items", some (.list (contentType.showItems.map ShowItem.encode))),
    ("override_columns", some (.list (contentType.overrideColumns.map CompiledField.encode))),
    ("vendor", some (.string contentType.vendor)),
    ("package", some (.string contentType.package)),
    ("icon", contentType.icon.map ContentTypeIcon.encode),
    ("priority", some (.int contentType.priority)),
    ("group", contentType.group.map Value.string)]

theorem tabulates_slots (contentType : ContentType) :
    Datum.Tabulates fieldNames contentType.slots :=
  ⟨rfl, by decide⟩

theorem encode_eq (contentType : ContentType) :
    contentType.encode = .object (Entries.present contentType.slots) := by
  simp only [encode, slots, Value.textEntry?, Value.present_cons, Entries.present_nil,
    List.append_assoc, List.cons_append, List.nil_append, List.append_nil]
  rfl

/-- A content type is read from what is written of it, except for conditions that are null. -/
theorem decode_encode {contentType : ContentType} (hType : contentType.HoldsJson Admits) :
    decode (.ofValue contentType.encode) = .ok contentType.withoutNull := by
  have hTable := contentType.tabulates_slots
  have hColumns : Datum.listOf CompiledField.decode
      (.ofValue (.list (contentType.overrideColumns.map CompiledField.encode))) =
        .ok (contentType.overrideColumns.map CompiledField.withoutNull) :=
    Datum.listOf_map fun field hField =>
      CompiledField.decode_encode (hType.overrideColumns field hField)
  have hPriority : Datum.int32 (.ofValue (.int contentType.priority)) =
      .ok contentType.priority :=
    Datum.int32_eq_ok_iff.mpr ⟨rfl, hType.priority⟩
  rw [encode_eq]
  refine bind_eq_ok_iff.mpr ⟨_, hTable.slots_eq, ?_⟩
  simp only [bind_eq_ok_iff]
  exact ⟨_, hTable.requiredText (by simp [slots]),
    _, hTable.requiredText (by simp [slots]),
    _, hTable.required (by simp [slots]) (SchemaDocument.ContentKind.decode_word contentType.kind),
    _, hTable.text (by simp [slots]), _, hTable.text (by simp [slots]),
    _, hTable.text (by simp [slots]), _, hTable.text (by simp [slots]),
    _, hTable.text (by simp [slots]),
    _, hTable.required (by simp [slots])
      (Datum.listOf_ofValue_map fun item _ => item.decode_encode),
    _, hTable.required (by simp [slots]) hColumns,
    _, hTable.requiredText (by simp [slots]),
    _, hTable.requiredText (by simp [slots]),
    _, hTable.optional ContentTypeIcon.encode (by simp [slots])
      fun icon _ => ⟨nofun, icon.decode_encode⟩,
    _, hTable.withDefault (by simp [slots]) hPriority,
    _, hTable.text (by simp [slots]), rfl⟩

theorem isJson_encode {contentType : ContentType} (hType : contentType.HoldsJson Admits) :
    contentType.encode.IsJson := by
  rw [encode_eq]
  refine contentType.tabulates_slots.isJson ?_
  simp only [slots, List.forall_mem_cons]
  exact ⟨Value.heldJson_string _, Value.heldJson_string _, Value.heldJson_string _,
    Value.heldJson_text _, Value.heldJson_text _, Value.heldJson_text _, Value.heldJson_text _,
    Value.heldJson_text _, Value.heldJson_list fun item _ => item.isJson_encode,
    Value.heldJson_list fun _ hField => CompiledField.isJson_encode (hType.overrideColumns _ hField),
    Value.heldJson_string _, Value.heldJson_string _,
    Value.heldJson_map fun icon _ => icon.isJson_encode, Value.heldJson_some ⟨trivial, trivial⟩,
    Value.heldJson_text _, List.forall_mem_nil _⟩

end ContentType

/-! ## Tables -/

namespace Capabilities

/-- Capabilities that are read one by one are declared one by one. -/
theorem foldlM_declare {read : Capability → Except DecodeError (Option Bool)}
    {flag : Capability → Option Bool} (listed : List Capability)
    (hRead : ∀ c ∈ listed, read c = .ok (flag c)) (start : Capabilities) :
    listed.foldlM (fun state c => do return state.declare c (← read c)) start =
      .ok (listed.foldl (fun state c => state.declare c (flag c)) start) := by
  induction listed generalizing start with
  | nil => rfl
  | cons first rest ih =>
      obtain ⟨hFirst, hRest⟩ := List.forall_mem_cons.mp hRead
      rw [List.foldlM_cons, hFirst]
      exact ih hRest _

theorem declared_foldl_declare {flag : Capability → Option Bool} (listed : List Capability)
    (start : Capabilities) (c : Capability) :
    (listed.foldl (fun state c => state.declare c (flag c)) start).declared c =
      if c ∈ listed then flag c else start.declared c := by
  induction listed generalizing start with
  | nil => simp
  | cons first rest ih =>
      rw [List.foldl_cons, ih]
      by_cases hHere : c = first
      · simp [hHere, declare]
      · simp [hHere, declare]

theorem tabulates_slots (capabilities : Capabilities) :
    Datum.Tabulates (Capability.all.map Capability.word) (capabilities.slots Capability.all) :=
  ⟨rfl, by decide⟩

/-- Capabilities are read from what is written of them, whether they are declared or not. -/
theorem decode_encode (capabilities : Capabilities) :
    decode (.ofValue capabilities.encode) = .ok capabilities := by
  have hTable := capabilities.tabulates_slots
  rw [encode, encodeEntries_eq_present]
  refine bind_eq_ok_iff.mpr ⟨_, hTable.slots_eq, ?_⟩
  refine (foldlM_declare Capability.all (fun c hListed => hTable.flag
    (List.mem_map.mpr ⟨c, hListed, rfl⟩)) {}).trans (congrArg Except.ok (ext fun c => ?_))
  rw [declared_foldl_declare, if_pos c.mem_all]

theorem isJson_encode (capabilities : Capabilities) : capabilities.encode.IsJson := by
  rw [encode, encodeEntries_eq_present]
  exact capabilities.tabulates_slots.isJson
    (List.forall_mem_map.mpr fun c _ => Value.heldJson_bool _)

end Capabilities

namespace SortColumn

theorem decode_encode (column : SortColumn) : decode (.ofValue column.encode) = .ok column := by
  obtain ⟨identifier, order⟩ := column
  cases order <;> rfl

theorem isJson_encode (column : SortColumn) : column.encode.IsJson :=
  Value.isJson_cons_textEntry? (by decide) column.identifier (some column.order.word)

end SortColumn

namespace TableDefinition

/-- The fields that a definition describes: those that it stores and those that its content
types override. -/
def describedFields (definition : TableDefinition) : List CompiledField :=
  Entries.values definition.fields ++
    definition.contentTypes.flatMap ContentType.overrideColumns

/-- A JSON text can hold the definition: nothing is listed twice, and all its parts can be
held. -/
structure HoldsJson (Admits : Value → Prop) (definition : TableDefinition) : Prop where
  distinct : definition.Distinct
  fields : ∀ field ∈ definition.describedFields, field.HoldsJson Admits
  priorities : ∀ contentType ∈ definition.contentTypes,
    -0x80000000 ≤ contentType.priority ∧ contentType.priority < 0x80000000

/-- The definition without conditions that are null. -/
def withoutNull (definition : TableDefinition) : TableDefinition :=
  { definition with
    fields := Entries.mapValues CompiledField.withoutNull definition.fields
    contentTypes := definition.contentTypes.map ContentType.withoutNull }

/-- A definition is left as it is exactly when no condition in it is null. -/
theorem withoutNull_eq_self_iff {definition : TableDefinition} :
    definition.withoutNull = definition ↔
      ∀ field ∈ definition.describedFields, field.displayCond ≠ some .null := by
  have hParts : definition.withoutNull = definition ↔
      Entries.mapValues CompiledField.withoutNull definition.fields = definition.fields ∧
        definition.contentTypes.map ContentType.withoutNull = definition.contentTypes := by
    constructor
    · exact fun hSame => ⟨congrArg fields hSame, congrArg contentTypes hSame⟩
    · rintro ⟨hFields, hTypes⟩
      rw [withoutNull, hFields, hTypes]
  rw [hParts, Entries.mapValues_eq_self_iff, Entries.map_eq_self_iff, describedFields,
    List.forall_mem_append]
  simp only [CompiledField.withoutNull_eq_self_iff, ContentType.withoutNull_eq_self_iff,
    List.mem_flatMap, forall_exists_index, and_imp]
  exact and_congr_right fun _ =>
    ⟨fun hTypes field contentType hType => hTypes contentType hType field,
      fun hFields contentType hType field => hFields field contentType hType⟩

/-- The attributes of a definition by name, each with its value if it has one. -/
def slots (definition : TableDefinition) : List (String × Option Value) :=
  [("table", some (.string definition.table)),
    ("is_root_table", some (.bool definition.isRootTable)),
    ("type_field", definition.typeField.map Value.string),
    ("fields", some (.object (Entries.mapValues CompiledField.encode definition.fields))),
    ("palettes", some (.object (Entries.mapValues PaletteDefinition.encode definition.palettes))),
    ("aggregate_root", definition.aggregateRoot.map Value.bool),
    ("label_field", Value.filled? (definition.labelField.map Value.string)),
    ("fallback_label_fields", Value.filled? (definition.fallbackLabelFields.map Value.string)),
    ("sort_fields", Value.filled? (definition.sortFields.map SortColumn.encode)),
    ("root_level_type", definition.rootLevelType.map Value.string),
    ("append_label", definition.appendLabel.map Value.bool),
    ("capabilities", some definition.capabilities.encode),
    ("content_types", some (.list (definition.contentTypes.map ContentType.encode)))]

theorem tabulates_slots (definition : TableDefinition) :
    Datum.Tabulates fieldNames definition.slots :=
  ⟨rfl, by decide⟩

theorem encode_eq (definition : TableDefinition) :
    definition.encode = .object (Entries.present definition.slots) := by
  simp only [encode, slots, textsEntry?, Value.textEntry?, Value.boolEntry?,
    Value.listEntry?_eq_present, Value.present_cons, Entries.present_nil, List.append_assoc,
    List.cons_append, List.nil_append, List.append_nil]
  rfl

namespace HoldsJson

variable {definition : TableDefinition} (hDefinition : definition.HoldsJson Admits)

include hDefinition

theorem of_mem_fields {entry : String × CompiledField} (hEntry : entry ∈ definition.fields) :
    entry.2.HoldsJson Admits :=
  hDefinition.fields _ (List.mem_append_left _ (List.mem_map_of_mem hEntry))

theorem of_mem_contentTypes {contentType : ContentType}
    (hType : contentType ∈ definition.contentTypes) : contentType.HoldsJson Admits where
  overrideColumns := fun _ hField =>
    hDefinition.fields _ (List.mem_append_right _ (List.mem_flatMap.mpr ⟨_, hType, hField⟩))
  priority := hDefinition.priorities _ hType

end HoldsJson

/-- A definition is read from what is written of it, except for conditions that are null. -/
theorem decode_encode {definition : TableDefinition} (hDefinition : definition.HoldsJson Admits) :
    decode (.ofValue definition.encode) = .ok definition.withoutNull := by
  have hTable := definition.tabulates_slots
  have hFields := Datum.mapOf_mapValues hDefinition.distinct.fields fun _ hEntry =>
    CompiledField.decode_encode (hDefinition.of_mem_fields hEntry)
  have hPalettes := @Datum.mapOf_mapValues _ PaletteDefinition.decode PaletteDefinition.encode id
    definition.palettes hDefinition.distinct.palettes fun entry _ => entry.2.decode_encode
  have hSame : Entries.mapValues id definition.palettes = definition.palettes :=
    Entries.mapValues_eq_self_iff.mpr fun _ _ => rfl
  have hTypes := Datum.listOf_map fun _ hType =>
    ContentType.decode_encode (hDefinition.of_mem_contentTypes hType)
  rw [hSame] at hPalettes
  rw [encode_eq]
  refine bind_eq_ok_iff.mpr ⟨_, hTable.slots_eq, ?_⟩
  simp only [bind_eq_ok_iff]
  exact ⟨_, hTable.requiredText (by simp [slots]),
    _, hTable.requiredFlag (by simp [slots]),
    _, hTable.text (by simp [slots]), _, hTable.required (by simp [slots]) hFields,
    _, hTable.required (by simp [slots]) hPalettes, _, hTable.flag (by simp [slots]),
    _, hTable.listed (by simp [slots]) fun text _ => Datum.text_ofValue_string text,
    _, hTable.listed (by simp [slots]) fun text _ => Datum.text_ofValue_string text,
    _, hTable.listed (by simp [slots]) fun column _ => column.decode_encode,
    _, hTable.text (by simp [slots]), _, hTable.flag (by simp [slots]),
    _, hTable.required (by simp [slots]) definition.capabilities.decode_encode,
    _, hTable.required (by simp [slots]) hTypes, rfl⟩

/-- What is written of a definition is a JSON value. -/
theorem isJson_encode {definition : TableDefinition} (hDefinition : definition.HoldsJson Admits) :
    definition.encode.IsJson := by
  have hFields := Value.isJson_mapValues hDefinition.distinct.fields fun _ hEntry =>
    CompiledField.isJson_encode (hDefinition.of_mem_fields hEntry)
  have hPalettes := Value.isJson_mapValues hDefinition.distinct.palettes fun entry _ =>
    entry.2.isJson_encode
  have hTexts (texts : List String) :
      Value.HeldJson (Value.filled? (texts.map Value.string)) :=
    Value.heldJson_filled? (Value.isJson_list_iff.mp (Value.isJson_strings texts))
  rw [encode_eq]
  refine definition.tabulates_slots.isJson ?_
  simp only [slots, List.forall_mem_cons]
  exact ⟨Value.heldJson_string _, Value.heldJson_flag _, Value.heldJson_text _,
    Value.heldJson_some hFields, Value.heldJson_some hPalettes, Value.heldJson_bool _, hTexts _,
    hTexts _, Value.heldJson_filled? (List.forall_mem_map.mpr fun column _ => column.isJson_encode),
    Value.heldJson_text _, Value.heldJson_bool _,
    Value.heldJson_some definition.capabilities.isJson_encode,
    Value.heldJson_list fun _ hType =>
      ContentType.isJson_encode (hDefinition.of_mem_contentTypes hType),
    List.forall_mem_nil _⟩

end TableDefinition
end ContentSchema
