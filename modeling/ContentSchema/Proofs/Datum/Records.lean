import ContentSchema.Proofs.Datum.Reading

/-!
# Records of known names

A record that has no entries beside those that its reader knows is written from a table of
them and read name by name.  A list or a map in it is read part by part, and what is read of
a part may be something else than what was written.

* `Datum.Tabulates` says that a table has all names that a reader knows.
* `Datum.Tabulates.slots_eq` says that its record is read as the slots of the table.
* `Datum.Tabulates.required` and its like say what is read of a slot.

A free-form value that may be absent is NOT read again when it is null: `Value.unlessNull`
says what is read of it.
-/

namespace ContentSchema

namespace Entries

/-- A list is left as it is when each of its items is. -/
theorem map_eq_self_iff {α : Type} {f : α → α} {items : List α} :
    items.map f = items ↔ ∀ item ∈ items, f item = item := by
  have hMap := @List.map_inj_left _ _ items f id
  rw [List.map_id] at hMap
  exact hMap

theorem mapValues_eq_self_iff {α : Type} {f : α → α} {entries : Entries α} :
    mapValues f entries = entries ↔ ∀ value ∈ values entries, f value = value := by
  rw [mapValues, map_eq_self_iff, values, List.forall_mem_map]
  refine forall₂_congr fun entry _ => ?_
  obtain ⟨name, value⟩ := entry
  simp

end Entries

namespace Value

/-- What is there of a value that may be null. -/
def unlessNull : Option Value → Option Value
  | some .null => none
  | v => v

theorem unlessNull_eq_self_iff {v : Option Value} : unlessNull v = v ↔ v ≠ some .null := by
  cases v with
  | none => simp [unlessNull]
  | some v => cases v <;> simp [unlessNull]

theorem heldJson_some {v : Value} (hValue : v.IsJson) : HeldJson (some v) := by
  rintro _ ⟨⟩
  exact hValue

theorem heldJson_string (text : String) : HeldJson (some (string text)) :=
  heldJson_some (isJson_string text)

theorem heldJson_flag (flag : Bool) : HeldJson (some (bool flag)) :=
  heldJson_some ⟨trivial, trivial⟩

theorem heldJson_list {α : Type} {write : α → Value} {items : List α}
    (hItems : ∀ item ∈ items, (write item).IsJson) : HeldJson (some (list (items.map write))) :=
  heldJson_some (isJson_list_iff.mpr (List.forall_mem_map.mpr hItems))

theorem isJson_of_mem_entry? {name : String} {v : Option Value} (hValue : HeldJson v) :
    ∀ entry ∈ entry? name v, entry.2.IsJson := by
  rw [entry?_eq_present]
  exact isJson_of_mem_present (List.forall_mem_singleton.mpr hValue)

theorem isJson_mapValues {α : Type} {write : α → Value} {entries : Entries α}
    (hDistinct : Entries.Distinct entries) (hEntries : ∀ entry ∈ entries, (write entry.2).IsJson) :
    (object (Entries.mapValues write entries)).IsJson := by
  refine isJson_object_iff.mpr ⟨?_, List.forall_mem_map.mpr hEntries⟩
  rw [Entries.Distinct, Entries.keys_mapValues]
  exact hDistinct

end Value

namespace Datum

variable {α : Type}

/-- One of a closed set of things is read by its word when the word is its own. -/
theorem oneOf_word {spelling : α → String} {all : List α} {a : α}
    (hFound : all.find? (fun b => spelling b = spelling a) = some a) :
    oneOf spelling all (ofValue (.string (spelling a))) = .ok a := by
  refine bind_eq_ok_iff.mpr ⟨spelling a, rfl, ?_⟩
  simp only [hFound]

/-- A list that is written item by item is read item by item. -/
theorem listOf_map {read : Datum → Except DecodeError α} {write : α → Value} {again : α → α}
    {items : List α} (hItems : ∀ item ∈ items, read (ofValue (write item)) = .ok (again item)) :
    listOf read (ofValue (.list (items.map write))) = .ok (items.map again) := by
  rw [listOf_ofValue_list, List.map_map]
  exact mapM_map_eq_ok_map hItems

/-- Values that are written under names are read under the same names. -/
theorem mapOf_mapValues {read : Datum → Except DecodeError α} {write : α → Value} {again : α → α}
    {entries : Entries α} (hDistinct : Entries.Distinct entries)
    (hEntries : ∀ entry ∈ entries, read (ofValue (write entry.2)) = .ok (again entry.2)) :
    mapOf read (ofValue (.object (Entries.mapValues write entries))) =
      .ok (Entries.mapValues again entries) := by
  have hPairs : ofEntries (Entries.mapValues write entries) =
      entries.map fun entry => (.atom (.string entry.1), ofValue (write entry.2)) := by
    clear hDistinct hEntries
    induction entries with
    | nil => rfl
    | cons entry rest ih => exact congrArg _ ih
  have hRead (entry : String × α) (hEntry : entry ∈ entries) :
      (do return (← text (.atom (.string entry.1)), ← read (ofValue (write entry.2))) :
        Except DecodeError (String × α)) = .ok (entry.1, again entry.2) := by
    rw [hEntries entry hEntry]
    rfl
  have hAgain : Entries.Distinct (Entries.mapValues again entries) := by
    rw [Entries.Distinct, Entries.keys_mapValues]
    exact hDistinct
  refine bind_eq_ok_iff.mpr ⟨_, congrArg Except.ok hPairs, bind_eq_ok_iff.mpr
    ⟨Entries.mapValues again entries, mapM_map_eq_ok_map hRead, ?_⟩⟩
  exact congrArg Except.ok (Entries.ofList_eq_self hAgain)

/-! ## Fields of a table -/

/-- The table has a slot for every known name, in order and once. -/
structure Tabulates (known : List String) (table : List (String × Option Value)) : Prop where
  names : table.map Prod.fst = known
  nodup : known.Nodup

namespace Tabulates

variable {known : List String} {table : List (String × Option Value)} {field : String}
  (hTable : Tabulates known table)

include hTable

theorem lookup_eq {v : Option Value} (hSlot : (field, v) ∈ table) :
    (Entries.present table).lookup field = v :=
  Entries.lookup_present (hTable.names ▸ hTable.nodup) hSlot

theorem mem_known {v : Option Value} (hSlot : (field, v) ∈ table) : field ∈ known :=
  hTable.names ▸ List.mem_map_of_mem hSlot

theorem distinct : Entries.Distinct (Entries.present table) :=
  (hTable.names ▸ hTable.nodup).sublist Entries.keys_present_sublist

/-- A record that is written from the table is read slot by slot. -/
theorem slots_eq :
    slots known (.ofValue (.object (Entries.present table))) =
      .ok (.ofWritten known (Entries.present table)) := by
  show splitKnown known (ofEntries (Entries.present table)) >>= _ = _
  rw [splitKnown_ofEntries_iff.mpr ⟨Entries.distinct_among hTable.distinct, rfl, rfl⟩]
  rfl

theorem isJson (hSlots : ∀ slot ∈ table, Value.HeldJson slot.2) :
    (Value.object (Entries.present table)).IsJson :=
  Value.isJson_object_iff.mpr ⟨hTable.distinct, Value.isJson_of_mem_present hSlots⟩

theorem required {v : Value} {read : Datum → Except DecodeError α} {a : α}
    (hSlot : (field, some v) ∈ table) (hRead : read (ofValue v) = .ok a) :
    (Slots.ofWritten known (Entries.present table)).required field read = .ok a :=
  Slots.required_eq_ok (fun _ => v) (hTable.mem_known hSlot) (hTable.lookup_eq hSlot) hRead

theorem withDefault {v : Value} {read : Datum → Except DecodeError α} {default a : α}
    (hSlot : (field, some v) ∈ table) (hRead : read (ofValue v) = .ok a) :
    (Slots.ofWritten known (Entries.present table)).withDefault field default read = .ok a :=
  Slots.withDefault_eq_ok (fun _ => v) (hTable.mem_known hSlot) (hTable.lookup_eq hSlot) hRead

theorem optional (write : α → Value) {read : Datum → Except DecodeError α} {a : Option α}
    (hSlot : (field, a.map write) ∈ table)
    (hRead : ∀ b, a = some b → write b ≠ .null ∧ read (ofValue (write b)) = .ok b) :
    (Slots.ofWritten known (Entries.present table)).optional field read = .ok a :=
  Slots.optional_eq_ok write (hTable.mem_known hSlot) (hTable.lookup_eq hSlot) hRead

theorem requiredText {text : String} (hSlot : (field, some (.string text)) ∈ table) :
    (Slots.ofWritten known (Entries.present table)).required field Datum.text = .ok text :=
  hTable.required hSlot (text_ofValue_string text)

theorem requiredFlag {flag : Bool} (hSlot : (field, some (.bool flag)) ∈ table) :
    (Slots.ofWritten known (Entries.present table)).required field Datum.bool = .ok flag :=
  hTable.required hSlot (bool_ofValue_bool flag)

theorem text {text : Option String} (hSlot : (field, text.map Value.string) ∈ table) :
    (Slots.ofWritten known (Entries.present table)).optional field Datum.text = .ok text :=
  hTable.optional Value.string hSlot fun s _ => ⟨nofun, text_ofValue_string s⟩

theorem flag {flag : Option Bool} (hSlot : (field, flag.map Value.bool) ∈ table) :
    (Slots.ofWritten known (Entries.present table)).optional field Datum.bool = .ok flag :=
  hTable.optional Value.bool hSlot fun b _ => ⟨nofun, bool_ofValue_bool b⟩

theorem listed {write : α → Value} {read : Datum → Except DecodeError α} {items : List α}
    (hSlot : (field, Value.filled? (items.map write)) ∈ table)
    (hRead : ∀ item ∈ items, read (ofValue (write item)) = .ok item) :
    (Slots.ofWritten known (Entries.present table)).withDefault field [] (listOf read) =
      .ok items :=
  Slots.list_eq_ok write (hTable.mem_known hSlot) (hTable.lookup_eq hSlot) hRead

/-- A free-form value that may be absent is read again unless it is null. -/
theorem value {v : Option Value} (hSlot : (field, v) ∈ table) (hValue : Value.HeldJson v) :
    (Slots.ofWritten known (Entries.present table)).optional field Datum.value =
      .ok (Value.unlessNull v) := by
  rw [Slots.optional, Slots.withDefault, Slots.lookup_ofWritten (hTable.mem_known hSlot),
    hTable.lookup_eq hSlot]
  cases v with
  | none => rfl
  | some v =>
      show Datum.optional Datum.value (ofValue v) = _
      cases hKind : v with
      | null => rfl
      | _ =>
          rw [← hKind, optional_ofValue (by simp [hKind]), value_ofValue (hValue v rfl), hKind]
          rfl

end Tabulates
end Datum

end ContentSchema
