import ContentSchema.Document.Settings
import ContentSchema.Proofs.Datum.Reading

/-!
# Table settings as written

Settings are written as entries among others and read back by walking all entries twice,
once for the plain settings and once for the capabilities.  Each walk passes over what
belongs to the other, and no name is written twice, so every setting is read as it was.

* `TableSettings.decodeEntries_encodeEntries` is the round trip.

It holds of all settings; nothing is asked of where they came from.
-/

namespace ContentSchema

/-! ## Walks over a table -/

namespace Datum

/-- A step over a slot of a table: nothing happens where no value is there. -/
def walkSlot {σ : Type} (step : σ → String × Datum → Except DecodeError σ) (state : σ)
    (slot : String × Option Value) : Except DecodeError σ :=
  match slot.2 with
  | none => .ok state
  | some v => step state (slot.1, .ofValue v)

/-- A walk over written entries sees those that are there. -/
theorem foldlM_present {σ : Type} {step : σ → String × Datum → Except DecodeError σ}
    (table : List (String × Option Value)) (start : σ) :
    (Entries.mapValues ofValue (Entries.present table)).foldlM step start =
      table.foldlM (walkSlot step) start := by
  induction table generalizing start with
  | nil => rfl
  | cons slot rest ih =>
      obtain ⟨name, v⟩ := slot
      cases v with
      | none => exact ih start
      | some v =>
          show step start (name, .ofValue v) >>= _ = step start (name, .ofValue v) >>= _
          exact bind_congr ih

/-- Slots over which each step does nothing leave the state as it is. -/
theorem foldlM_walkSlot_of_foreign {σ : Type} {step : σ → String × Datum → Except DecodeError σ}
    {table : List (String × Option Value)} {state : σ}
    (hForeign : ∀ slot ∈ table, ∀ d, step state (slot.1, d) = .ok state) :
    table.foldlM (walkSlot step) state = .ok state := by
  induction table with
  | nil => rfl
  | cons slot rest ih =>
      obtain ⟨hSlot, hRest⟩ := List.forall_mem_cons.mp hForeign
      have hStep : walkSlot step state slot = .ok state := by
        unfold walkSlot
        split
        · rfl
        · exact hSlot _
      rw [List.foldlM_cons, hStep]
      exact ih hRest

end Datum

/-! ## Single settings -/

theorem LabelField.encode_ne_null (labels : LabelField) : labels.encode ≠ .null := by
  cases labels <;> simp [encode, Value.strings]

theorem SortSetting.encode_ne_null (sorting : SortSetting) : sorting.encode ≠ .null := by
  cases sorting <;> simp [encode]

theorem Value.isJson_strings (texts : List String) : (Value.strings texts).IsJson :=
  Value.isJson_list_iff.mpr fun item hItem => by
    obtain ⟨text, _, rfl⟩ := List.mem_map.mp hItem
    exact Value.isJson_string text

theorem LabelField.isJson_encode (labels : LabelField) : labels.encode.IsJson := by
  cases labels with
  | single identifier => exact Value.isJson_string identifier
  | multiple identifiers => exact Value.isJson_strings identifiers

theorem SortEntry.isJson_encode (entry : SortEntry) : entry.encode.IsJson := by
  obtain ⟨identifier, order⟩ := entry
  exact Value.isJson_cons_textEntry? (by decide) identifier order

theorem SortSetting.isJson_encode (sorting : SortSetting) : sorting.encode.IsJson := by
  cases sorting with
  | single identifier => exact Value.isJson_string identifier
  | multiple entries =>
      refine Value.isJson_list_iff.mpr fun item hItem => ?_
      obtain ⟨entry, _, rfl⟩ := List.mem_map.mp hItem
      exact entry.isJson_encode

theorem Datum.listOf_text_strings (texts : List String) :
    Datum.listOf Datum.text (.ofValue (Value.strings texts)) = .ok texts :=
  Datum.listOf_ofValue_map fun text _ => Datum.text_ofValue_string text

theorem LabelField.decode_encode (labels : LabelField) :
    decode (.ofValue labels.encode) = .ok labels := by
  cases labels with
  | single identifier => rfl
  | multiple identifiers =>
      obtain ⟨e, hText⟩ : ∃ e, Datum.text (.ofValue (Value.strings identifiers)) = .error e :=
        ⟨_, rfl⟩
      rw [encode, decode, hText, Datum.listOf_text_strings]

theorem SortEntry.decode_encode (entry : SortEntry) :
    decode (.ofValue entry.encode) = .ok entry := by
  obtain ⟨identifier, order⟩ := entry
  cases order <;> rfl

theorem SortSetting.decode_encode (sorting : SortSetting) :
    decode (.ofValue sorting.encode) = .ok sorting := by
  cases sorting with
  | single identifier => rfl
  | multiple entries =>
      obtain ⟨e, hText⟩ : ∃ e,
        Datum.text (.ofValue (.list (entries.map SortEntry.encode))) = .error e := ⟨_, rfl⟩
      rw [encode, decode, hText,
        Datum.listOf_ofValue_map fun entry _ => SortEntry.decode_encode entry]

/-! ## The table of settings -/

namespace Capabilities

/-- Some capabilities by name, each with what is declared of it. -/
def slots (capabilities : Capabilities) (listed : List Capability) : List (String × Option Value) :=
  listed.map fun c => (c.word, (capabilities.declared c).map Value.bool)

theorem encodeEntries_eq_present (capabilities : Capabilities) :
    capabilities.encodeEntries = Entries.present (capabilities.slots Capability.all) := by
  unfold encodeEntries slots
  induction Capability.all with
  | nil => rfl
  | cons c rest ih =>
      rw [List.flatMap_cons, ih, Value.boolEntry?, Value.entry?_eq_present,
        ← Entries.present_append]
      rfl

end Capabilities

namespace TableSettings

/-- The settings other than capabilities by name, each with its value if it is set. -/
def plainSlots (settings : TableSettings) : List (String × Option Value) :=
  [("labelField", settings.labelField.map LabelField.encode),
    ("fallbackLabelFields", Value.filled? (settings.fallbackLabelFields.map Value.string)),
    ("sortField", settings.sortField.map SortSetting.encode),
    ("aggregateRoot", settings.aggregateRoot.map Value.bool),
    ("rootLevelType", settings.rootLevelType.map Value.string),
    ("appendLabel", settings.appendLabel.map Value.bool)]

/-- All settings by name, each with its value if it is set. -/
def slots (settings : TableSettings) : List (String × Option Value) :=
  settings.plainSlots ++ settings.capabilities.slots Capability.all

theorem nodup_names : names.Nodup := by decide

/-- There is a slot for every name, and no other slot. -/
theorem map_fst_slots (settings : TableSettings) : settings.slots.map Prod.fst = names := rfl

/-- No setting other than the capabilities has the word of a capability. -/
theorem ofWord?_of_mem_plainSlots {settings : TableSettings} {slot : String × Option Value}
    (hSlot : slot ∈ settings.plainSlots) : Capability.ofWord? slot.1 = none := by
  have hPlain : ∀ name ∈ names.take 6, Capability.ofWord? name = none := by decide
  have hName : slot.1 ∈ names.take 6 := List.mem_map_of_mem hSlot
  exact hPlain slot.1 hName

theorem encodeEntries_eq_present (settings : TableSettings) :
    settings.encodeEntries = Entries.present settings.slots := by
  have hFallback : (if settings.fallbackLabelFields.isEmpty then []
      else [("fallbackLabelFields", Value.strings settings.fallbackLabelFields)]) =
        Entries.present [("fallbackLabelFields",
          Value.filled? (settings.fallbackLabelFields.map Value.string))] := by
    cases settings.fallbackLabelFields <;> rfl
  rw [encodeEntries, hFallback, Capabilities.encodeEntries_eq_present]
  simp only [Value.boolEntry?, Value.textEntry?, Value.entry?_eq_present, ← Entries.present_append]
  rfl

/-! ## Reading the table -/

/-- An optional setting is read as it was, whether it was set or not. -/
theorem walkSlot_readEntry {α : Type} (name : String) (set : Option α → TableSettings)
    (write : α → Value) (read : Datum → Except DecodeError α)
    (hStep : ∀ d, readEntry (set none) (name, d) = do return set (← d.optional read))
    (hRead : ∀ a, write a ≠ .null ∧ read (.ofValue (write a)) = .ok a) (setting : Option α) :
    Datum.walkSlot readEntry (set none) (name, setting.map write) = .ok (set setting) := by
  cases setting with
  | none => rfl
  | some a =>
      obtain ⟨hPresent, hAgain⟩ := hRead a
      show readEntry (set none) (name, .ofValue (write a)) = _
      rw [hStep, Datum.optional_ofValue hPresent, hAgain]
      rfl

/-- The columns that stand in for the label are read as they were, whether there are any
or not. -/
theorem walkSlot_fallbackLabelFields {state : TableSettings}
    (hUnset : state.fallbackLabelFields = []) (columns : List String) :
    Datum.walkSlot readEntry state
        ("fallbackLabelFields", Value.filled? (columns.map Value.string)) =
      .ok { state with fallbackLabelFields := columns } := by
  cases columns with
  | nil =>
      obtain ⟨_, fallbacks⟩ := state
      cases hUnset
      rfl
  | cons first rest =>
      show (Datum.listOf Datum.text (.ofValue (Value.strings (first :: rest))) >>= fun columns =>
        return { state with fallbackLabelFields := columns }) = _
      rw [Datum.listOf_text_strings]
      rfl

/-- The plain settings are read from their slots as they were. -/
theorem foldlM_plainSlots (settings : TableSettings) :
    settings.plainSlots.foldlM (Datum.walkSlot readEntry) {} =
      .ok { settings with capabilities := {} } := by
  obtain ⟨labels, fallbacks, sorting, aggregate, level, append, capabilities⟩ := settings
  -- Each setting is read into the settings that the slots before it have left.
  have hLabels := walkSlot_readEntry "labelField" (fun a => { labelField := a }) LabelField.encode
    LabelField.decode (fun _ => rfl) (fun a => ⟨a.encode_ne_null, a.decode_encode⟩) labels
  have hFallbacks := @walkSlot_fallbackLabelFields { labelField := labels } rfl fallbacks
  have hSorting := walkSlot_readEntry "sortField"
    (fun a => ⟨labels, fallbacks, a, none, none, none, {}⟩) SortSetting.encode
    SortSetting.decode (fun _ => rfl) (fun a => ⟨a.encode_ne_null, a.decode_encode⟩) sorting
  have hAggregate := walkSlot_readEntry "aggregateRoot"
    (fun a => ⟨labels, fallbacks, sorting, a, none, none, {}⟩) Value.bool
    Datum.bool (fun _ => rfl) (fun b => ⟨nofun, Datum.bool_ofValue_bool b⟩) aggregate
  have hLevel := walkSlot_readEntry "rootLevelType"
    (fun a => ⟨labels, fallbacks, sorting, aggregate, a, none, {}⟩) Value.string
    Datum.text (fun _ => rfl) (fun s => ⟨nofun, Datum.text_ofValue_string s⟩) level
  have hAppend := walkSlot_readEntry "appendLabel"
    (fun a => ⟨labels, fallbacks, sorting, aggregate, level, a, {}⟩) Value.bool
    Datum.bool (fun _ => rfl) (fun b => ⟨nofun, Datum.bool_ofValue_bool b⟩) append
  simp only [plainSlots, List.foldlM_cons, List.foldlM_nil, hLabels, hFallbacks, hSorting,
    hAggregate, hLevel, hAppend, bind, Except.bind, pure, Except.pure]

end TableSettings

namespace Capabilities

theorem ofWord?_word (capability : Capability) :
    Capability.ofWord? capability.word = some capability := by
  cases capability <;> decide

/-- A capability is read from its slot as it was, whether it was declared or not. -/
theorem walkSlot_readEntry {state : Capabilities} (capability : Capability) (flag : Option Bool)
    (hUndeclared : state.declared capability = none) :
    Datum.walkSlot readEntry state (capability.word, flag.map Value.bool) =
      .ok (state.declare capability flag) := by
  cases flag with
  | none =>
      refine congrArg Except.ok (ext fun c => ?_)
      show state.declared c = if c = capability then none else state.declared c
      split
      case isTrue hSame => rw [hSame, hUndeclared]
      case isFalse => rfl
  | some flag =>
      show readEntry state (capability.word, .ofValue (.bool flag)) = _
      rw [readEntry, ofWord?_word]
      rfl

/-- Capabilities that are listed once are read from their slots as they were. -/
theorem foldlM_slots {capabilities : Capabilities} {listed : List Capability}
    (hListed : listed.Nodup) {state : Capabilities}
    (hUndeclared : ∀ c ∈ listed, state.declared c = none) :
    ∃ after, (capabilities.slots listed).foldlM (Datum.walkSlot readEntry) state = .ok after ∧
      ∀ c, after.declared c = if c ∈ listed then capabilities.declared c else state.declared c := by
  induction listed generalizing state with
  | nil => exact ⟨state, rfl, by simp⟩
  | cons first rest ih =>
      obtain ⟨hFirst, hRest⟩ := List.nodup_cons.mp hListed
      have hStep := walkSlot_readEntry first (capabilities.declared first)
        (hUndeclared first List.mem_cons_self)
      have hLater : ∀ c ∈ rest,
          (state.declare first (capabilities.declared first)).declared c = none := by
        intro c hMem
        have hOther : c ≠ first := fun hSame => hFirst (hSame ▸ hMem)
        exact (if_neg hOther).trans (hUndeclared c (List.mem_cons_of_mem _ hMem))
      obtain ⟨after, hWalk, hAfter⟩ := ih hRest hLater
      refine ⟨after, ?_, fun c => ?_⟩
      · rw [slots, List.map_cons, List.foldlM_cons, hStep]
        exact hWalk
      · rw [hAfter c]
        by_cases hSame : c = first
        · subst hSame
          simp [hFirst, declare]
        · simp [hSame, declare]

end Capabilities

namespace TableSettings

/-- Where no name repeats, both walks are taken. -/
theorem decodeEntries_of_distinct {entries : Entries Datum} (hDistinct : Entries.Distinct entries) :
    decodeEntries entries = do
      let settings ← entries.foldlM readEntry {}
      let capabilities ← entries.foldlM Capabilities.readEntry {}
      return { settings with capabilities } := by
  have hOnce : ((entries.map Prod.fst).filter names.contains).Nodup :=
    hDistinct.sublist List.filter_sublist
  have hNone : (((entries.map Prod.fst).filter names.contains).find? fun name =>
      1 < ((entries.map Prod.fst).filter names.contains).count name) = none := by
    rw [List.find?_eq_none]
    intro name _
    have hCount := List.nodup_iff_count_le_one.mp hOnce name
    simpa using hCount
  simp only [decodeEntries, hNone]

theorem distinct_encodeEntries (settings : TableSettings) :
    Entries.Distinct settings.encodeEntries := by
  rw [encodeEntries_eq_present]
  exact (settings.map_fst_slots ▸ nodup_names).sublist Entries.keys_present_sublist

theorem mem_names_of_mem_keys {settings : TableSettings} {name : String}
    (hName : name ∈ Entries.keys settings.encodeEntries) : name ∈ names := by
  rw [encodeEntries_eq_present] at hName
  exact settings.map_fst_slots ▸ Entries.keys_present_sublist.subset hName

/-- A JSON text can hold every setting. -/
theorem isJson_of_mem_encodeEntries (settings : TableSettings) :
    ∀ entry ∈ settings.encodeEntries, entry.2.IsJson := by
  rw [encodeEntries_eq_present]
  refine Value.isJson_of_mem_present (List.forall_mem_append.mpr ⟨?_, fun slot hSlot => ?_⟩)
  · simp only [plainSlots, List.forall_mem_cons]
    exact ⟨Value.heldJson_map fun labels _ => labels.isJson_encode,
      Value.heldJson_filled? (Value.isJson_list_iff.mp (Value.isJson_strings _)),
      Value.heldJson_map fun sorting _ => sorting.isJson_encode, Value.heldJson_bool _,
      Value.heldJson_text _, Value.heldJson_bool _, List.forall_mem_nil _⟩
  · obtain ⟨c, _, rfl⟩ := List.mem_map.mp hSlot
    exact Value.heldJson_bool _

/-- Settings are read from what was written as they were. -/
theorem decodeEntries_encodeEntries (settings : TableSettings) :
    decodeEntries (Entries.mapValues Datum.ofValue settings.encodeEntries) = .ok settings := by
  have hPlain : settings.slots.foldlM (Datum.walkSlot readEntry) {} =
      .ok { settings with capabilities := {} } := by
    rw [slots, List.foldlM_append, foldlM_plainSlots]
    refine Datum.foldlM_walkSlot_of_foreign fun slot hSlot d => ?_
    obtain ⟨c, _, rfl⟩ := List.mem_map.mp hSlot
    cases c <;> rfl
  have hCapabilities : settings.slots.foldlM (Datum.walkSlot Capabilities.readEntry) {} =
      .ok settings.capabilities := by
    -- The first six slots are foreign to this walk, as the other eleven are to the first.
    have hForeign :
        settings.plainSlots.foldlM (Datum.walkSlot Capabilities.readEntry) {} = .ok {} := by
      refine Datum.foldlM_walkSlot_of_foreign fun slot hSlot d => ?_
      rw [Capabilities.readEntry, ofWord?_of_mem_plainSlots hSlot]
    obtain ⟨after, hWalk, hAfter⟩ :=
      @Capabilities.foldlM_slots settings.capabilities Capability.all (by decide) {} fun _ _ => rfl
    rw [slots, List.foldlM_append, hForeign]
    refine hWalk.trans (congrArg Except.ok (Capabilities.ext fun c => ?_))
    rw [hAfter c, if_pos c.mem_all]
  have hDistinct : Entries.Distinct (Entries.mapValues Datum.ofValue settings.encodeEntries) := by
    rw [Entries.Distinct, Entries.keys_mapValues]
    exact settings.distinct_encodeEntries
  rw [decodeEntries_of_distinct hDistinct, encodeEntries_eq_present, Datum.foldlM_present,
    Datum.foldlM_present, hPlain, hCapabilities]
  rfl

end TableSettings
end ContentSchema
