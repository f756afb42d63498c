import ContentSchema.Datum.Reading
import ContentSchema.Proofs.Entries.Writes
import ContentSchema.Proofs.Walk.Result

/-!
# Values as data

A value can be written as data and read again.  What comes out is a value that a
JSON text can hold: no object repeats a name, and every double is a number.  Such a
value comes out as it went in.

* `Value.IsJson` says which values a JSON text can hold.
* `Datum.isJson_of_value?` says that reading leaves no other.
* `Datum.value?_ofValue` says that it leaves these as they are.
* `Datum.ne_null_of_value?` says that nothing but null is read as null.

A double that is NOT a number is read as null, which is why the last statement asks
for values whose doubles are numbers.
-/

namespace ContentSchema

namespace Value

mutual

/-- Every double in the value is a number. -/
def Finite : Value → Prop
  | .double d => d.isFinite = true
  | .list items => ItemsFinite items
  | .object entries => EntriesFinite entries
  | _ => True

/-- Every double in the list is a number. -/
def ItemsFinite : List Value → Prop
  | [] => True
  | item :: rest => item.Finite ∧ ItemsFinite rest

/-- Every double in the entries is a number. -/
def EntriesFinite : List (String × Value) → Prop
  | [] => True
  | (_, value) :: rest => value.Finite ∧ EntriesFinite rest

end

/-- A JSON text can hold the value. -/
structure IsJson (v : Value) : Prop where
  wellFormed : v.WellFormed
  finite : v.Finite

theorem itemsFinite_iff {items : List Value} : ItemsFinite items ↔ ∀ item ∈ items, item.Finite := by
  induction items with
  | nil => simp [ItemsFinite]
  | cons item rest ih => simp [ItemsFinite, ih]

theorem entriesFinite_iff {entries : List (String × Value)} :
    EntriesFinite entries ↔ ∀ entry ∈ entries, entry.2.Finite := by
  induction entries with
  | nil => simp [EntriesFinite]
  | cons entry rest ih => simp [EntriesFinite, ih]

theorem isJson_list_iff {items : List Value} :
    IsJson (.list items) ↔ ∀ item ∈ items, item.IsJson := by
  constructor
  · rintro ⟨hFormed, hFinite⟩ item hItem
    exact ⟨itemsWellFormed_iff.mp hFormed item hItem, itemsFinite_iff.mp hFinite item hItem⟩
  · intro hItems
    exact ⟨itemsWellFormed_iff.mpr fun item hItem => (hItems item hItem).wellFormed,
      itemsFinite_iff.mpr fun item hItem => (hItems item hItem).finite⟩

theorem isJson_object_iff {entries : List (String × Value)} :
    IsJson (.object entries) ↔
      Entries.Distinct entries ∧ ∀ entry ∈ entries, entry.2.IsJson := by
  constructor
  · rintro ⟨⟨hDistinct, hFormed⟩, hFinite⟩
    exact ⟨hDistinct, fun entry hEntry =>
      ⟨entriesWellFormed_iff.mp hFormed entry hEntry, entriesFinite_iff.mp hFinite entry hEntry⟩⟩
  · rintro ⟨hDistinct, hEntries⟩
    exact ⟨⟨hDistinct, entriesWellFormed_iff.mpr fun entry hEntry =>
        (hEntries entry hEntry).wellFormed⟩,
      entriesFinite_iff.mpr fun entry hEntry => (hEntries entry hEntry).finite⟩

end Value

namespace Datum

/-! ## Writing -/

theorem ofItems_eq_map (items : List Value) : ofItems items = items.map ofValue := by
  induction items with
  | nil => rfl
  | cons item rest ih => rw [ofItems, ih, List.map_cons]

mutual

/-- All scalars of a value have their types. -/
theorem typed?_ofValue : ∀ v : Value, typed? (ofValue v) = some (ofValue v)
  | .null => rfl
  | .bool _ => rfl
  | .int _ => rfl
  | .double _ => rfl
  | .string _ => rfl
  | .list items => by rw [ofValue, typed?, typedItems?_ofItems items]; rfl
  | .object entries => by rw [ofValue, typed?, typedEntries?_ofEntries entries]; rfl

theorem typedItems?_ofItems :
    ∀ items : List Value, typedItems? (ofItems items) = some (ofItems items)
  | [] => rfl
  | item :: rest => by
      rw [ofItems, typedItems?, typed?_ofValue item, typedItems?_ofItems rest]
      rfl

theorem typedEntries?_ofEntries :
    ∀ entries : List (String × Value), typedEntries? (ofEntries entries) = some (ofEntries entries)
  | [] => rfl
  | (name, value) :: rest => by
      rw [ofEntries, typedEntries?, typed?_ofValue value, typedEntries?_ofEntries rest]
      rfl

end

/-! ## Reading -/

theorem isJson_ofAtom (a : Atom) : (ofAtom a).IsJson := by
  unfold ofAtom
  split
  case h_4 d =>
    split
    case isTrue hFinite => exact ⟨trivial, hFinite⟩
    case isFalse => exact ⟨trivial, trivial⟩
  all_goals exact ⟨trivial, trivial⟩

mutual

/-- What is read is a value that a JSON text can hold. -/
theorem isJson_of_value? : ∀ {d : Datum} {v : Value}, value? d = some v → v.IsJson
  | .atom a, v, hValue => by
      rw [← Option.some.inj hValue]
      exact isJson_ofAtom a
  | .scalar s, v, hValue => by
      obtain ⟨a, _, rfl⟩ := Option.map_eq_some_iff.mp hValue
      exact isJson_ofAtom a
  | .list items, v, hValue => by
      obtain ⟨values, hItems, rfl⟩ := Option.map_eq_some_iff.mp hValue
      exact Value.isJson_list_iff.mpr (isJson_of_valueItems? hItems)
  | .record entries, v, hValue => by
      obtain ⟨pairs, hEntries, rfl⟩ := Option.map_eq_some_iff.mp hValue
      refine Value.isJson_object_iff.mpr ⟨Entries.distinct_ofList pairs, fun entry hEntry => ?_⟩
      exact isJson_of_valueEntries? hEntries entry (Entries.mem_of_mem_ofList hEntry)
  | .tagged _, _, hValue => nomatch hValue

theorem isJson_of_valueItems? : ∀ {items : List Datum} {values : List Value},
    valueItems? items = some values → ∀ value ∈ values, value.IsJson
  | [], values, hValues => by
      rw [← Option.some.inj hValues]
      simp
  | item :: rest, values, hValues => by
      obtain ⟨first, hFirst, hMore⟩ := Option.bind_eq_some_iff.mp hValues
      obtain ⟨others, hOthers, hMade⟩ := Option.bind_eq_some_iff.mp hMore
      rw [← Option.some.inj hMade, List.forall_mem_cons]
      exact ⟨isJson_of_value? hFirst, isJson_of_valueItems? hOthers⟩

theorem isJson_of_valueEntries? : ∀ {entries : List (Datum × Datum)}
    {pairs : List (String × Value)}, valueEntries? entries = some pairs →
      ∀ pair ∈ pairs, pair.2.IsJson
  | [], pairs, hPairs => by
      rw [← Option.some.inj hPairs]
      simp
  | (name, d) :: rest, pairs, hPairs => by
      obtain ⟨key, _, hMore⟩ := Option.bind_eq_some_iff.mp hPairs
      obtain ⟨value, hValue, hLater⟩ := Option.bind_eq_some_iff.mp hMore
      obtain ⟨others, hOthers, hMade⟩ := Option.bind_eq_some_iff.mp hLater
      rw [← Option.some.inj hMade, List.forall_mem_cons]
      exact ⟨isJson_of_value? hValue, isJson_of_valueEntries? hOthers⟩

end

mutual

/-- A value that a JSON text can hold is read as it was written. -/
theorem value?_ofValue : ∀ {v : Value}, v.IsJson → value? (ofValue v) = some v
  | .null, _ => rfl
  | .bool _, _ => rfl
  | .int _, _ => rfl
  | .double d, hValue => by
      have hFinite : d.isFinite = true := hValue.finite
      rw [ofValue, value?, ofAtom, if_pos hFinite]
  | .string _, _ => rfl
  | .list items, hValue => by
      rw [ofValue, value?, valueItems?_ofItems (Value.isJson_list_iff.mp hValue)]
      rfl
  | .object entries, hValue => by
      obtain ⟨hDistinct, hEntries⟩ := Value.isJson_object_iff.mp hValue
      rw [ofValue, value?, valueEntries?_ofEntries hEntries, Option.map_some,
        Entries.ofList_eq_self hDistinct]

theorem valueItems?_ofItems : ∀ {items : List Value}, (∀ item ∈ items, item.IsJson) →
    valueItems? (ofItems items) = some items
  | [], _ => rfl
  | item :: rest, hItems => by
      obtain ⟨hItem, hRest⟩ := List.forall_mem_cons.mp hItems
      rw [ofItems, valueItems?, value?_ofValue hItem, valueItems?_ofItems hRest]
      rfl

theorem valueEntries?_ofEntries : ∀ {entries : List (String × Value)},
    (∀ entry ∈ entries, entry.2.IsJson) → valueEntries? (ofEntries entries) = some entries
  | [], _ => rfl
  | (name, value) :: rest, hEntries => by
      obtain ⟨hValue, hRest⟩ := List.forall_mem_cons.mp hEntries
      rw [ofEntries, valueEntries?, value?_ofValue hValue, valueEntries?_ofEntries hRest]
      rfl

end

/-- Where every double is a number, nothing but null is read as null. -/
theorem ne_null_of_value? {v w : Value} (hFinite : v.Finite) (hPresent : v ≠ .null)
    (hValue : value? (ofValue v) = some w) : w ≠ .null := by
  cases v with
  | null => contradiction
  | double d =>
      have hNumber : d.isFinite = true := hFinite
      rw [ofValue, value?, ofAtom, if_pos hNumber] at hValue
      rw [← Option.some.inj hValue]
      simp
  | bool b => rw [← Option.some.inj hValue]; simp [ofAtom]
  | int n => rw [← Option.some.inj hValue]; simp [ofAtom]
  | string s => rw [← Option.some.inj hValue]; simp [ofAtom]
  | list items =>
      obtain ⟨values, _, rfl⟩ := Option.map_eq_some_iff.mp hValue
      simp
  | object entries =>
      obtain ⟨pairs, _, rfl⟩ := Option.map_eq_some_iff.mp hValue
      simp

end Datum
end ContentSchema
