import ContentSchema.Proofs.Datum.Values
import ContentSchema.Proofs.Entries.Selection

/-!
# Reading what was written

A reader and a writer of the same thing agree when what was written is read again as
it was.  The readers of fields, lists and free-form values are told here from the
values that were written, so that agreement of a record is agreement of its fields.

* `Datum.splitKnown_ofEntries_iff` says how a record falls into known entries and others.
* `Datum.Slots.optional_eq_ok` and its like say what a field of it is read as.
* `Datum.mapM_settleEntry` says that the others are kept as they are, nulls included.

A field that is null is read as one that is absent, so the writer of an optional field
must NOT write null; that is a hypothesis wherever it matters.
-/

namespace ContentSchema

/-! ## Written entries -/

namespace Value

theorem entry?_eq_present (name : String) (v : Option Value) :
    entry? name v = Entries.present [(name, v)] := by
  cases v <;> rfl

/-- The slots of a table are written one after another. -/
theorem present_cons (name : String) (v : Option Value) (rest : List (String × Option Value)) :
    Entries.present ((name, v) :: rest) = entry? name v ++ Entries.present rest := by
  cases v <;> rfl

/-- A flag as written: only when it holds. -/
def flag? (flag : Bool) : Option Value :=
  if flag then some (.bool true) else none

/-- A list as written: only when it has an item. -/
def filled? (items : List Value) : Option Value :=
  if items.isEmpty then none else some (.list items)

/-- A JSON text can hold the value, if it is there. -/
def HeldJson (v : Option Value) : Prop :=
  ∀ w, v = some w → w.IsJson

theorem heldJson_map {α : Type} {write : α → Value} {a : Option α}
    (hWrite : ∀ b, a = some b → (write b).IsJson) : HeldJson (a.map write) := by
  intro w hMade
  obtain ⟨b, hSome, rfl⟩ := Option.map_eq_some_iff.mp hMade
  exact hWrite b hSome

theorem isJson_string (text : String) : (string text).IsJson :=
  ⟨trivial, trivial⟩

theorem isJson_empty : (object []).IsJson :=
  isJson_object_iff.mpr ⟨.nil, List.forall_mem_nil _⟩

theorem isJson_singleton {name : String} {v : Value} (hValue : v.IsJson) :
    (object [(name, v)]).IsJson :=
  isJson_object_iff.mpr ⟨List.nodup_singleton _, List.forall_mem_singleton.mpr hValue⟩

/-- A text and another one that may be absent make up an object. -/
theorem isJson_cons_textEntry? {first second : String} (hNames : first ≠ second) (text : String)
    (more : Option String) : (object ((first, string text) :: textEntry? second more)).IsJson := by
  cases more with
  | none => exact isJson_singleton (isJson_string text)
  | some other =>
      refine isJson_object_iff.mpr ⟨List.nodup_cons.mpr ⟨?_, List.nodup_singleton _⟩, ?_⟩
      · exact fun hFirst => hNames (List.mem_singleton.mp hFirst)
      · exact List.forall_mem_cons.mpr
          ⟨isJson_string text, List.forall_mem_singleton.mpr (isJson_string other)⟩

theorem heldJson_text (text : Option String) : HeldJson (text.map Value.string) :=
  heldJson_map fun _ _ => isJson_string _

theorem heldJson_bool (flag : Option Bool) : HeldJson (flag.map Value.bool) :=
  heldJson_map fun _ _ => ⟨trivial, trivial⟩

theorem heldJson_flag? (flag : Bool) : HeldJson (flag? flag) := by
  intro w hMade
  cases flag with
  | false => cases hMade
  | true =>
      cases hMade
      exact ⟨trivial, trivial⟩

theorem heldJson_filled? {items : List Value} (hItems : ∀ item ∈ items, item.IsJson) :
    HeldJson (filled? items) := by
  intro w hMade
  unfold filled? at hMade
  split at hMade
  · cases hMade
  · cases hMade
    exact isJson_list_iff.mpr hItems

/-- A JSON text can hold what is there of a table when it can hold each of its values. -/
theorem isJson_of_mem_present {table : List (String × Option Value)}
    (hTable : ∀ slot ∈ table, HeldJson slot.2) :
    ∀ entry ∈ Entries.present table, entry.2.IsJson :=
  fun _ hEntry => hTable _ (Entries.mem_present_iff.mp hEntry) _ rfl

theorem flagEntry?_eq_present (name : String) (flag : Bool) :
    flagEntry? name flag = Entries.present [(name, flag? flag)] := by
  cases flag <;> rfl

theorem listEntry?_eq_present (name : String) (items : List Value) :
    listEntry? name items = Entries.present [(name, filled? items)] := by
  cases items <;> rfl

end Value
namespace Datum

variable {α : Type}

/-! ## Single values -/

theorem expect_eq_ok_iff {expected : String} {read? : Datum → Option α} {d : Datum} {a : α} :
    expect expected read? d = .ok a ↔ read? d = some a := by
  unfold expect
  cases read? d <;> simp

@[simp] theorem text_ofValue_string (s : String) : text (ofValue (.string s)) = .ok s := rfl

@[simp] theorem bool_ofValue_bool (b : Bool) : bool (ofValue (.bool b)) = .ok b := rfl

theorem int32_eq_ok_iff {d : Datum} {n : Int} :
    int32 d = .ok n ↔ int? d = some n ∧ -0x80000000 ≤ n ∧ n < 0x80000000 := by
  rw [int32, expect_eq_ok_iff]
  simp [Option.filter_eq_some_iff]

theorem value_ofValue {v : Value} (hValue : v.IsJson) : value (ofValue v) = .ok v :=
  expect_eq_ok_iff.mpr (value?_ofValue hValue)

theorem isJson_of_value {d : Datum} {v : Value} (hValue : value d = .ok v) : v.IsJson :=
  isJson_of_value? (expect_eq_ok_iff.mp hValue)

theorem settled_ofValue {v : Value} (hValue : v.IsJson) : settled (ofValue v) = .ok v :=
  expect_eq_ok_iff.mpr (by rw [typed?_ofValue, Option.bind_some, value?_ofValue hValue])

theorem isJson_of_settled {d : Datum} {v : Value} (hValue : settled d = .ok v) : v.IsJson := by
  obtain ⟨_, _, hRead⟩ := Option.bind_eq_some_iff.mp (expect_eq_ok_iff.mp hValue)
  exact isJson_of_value? hRead

/-! ## Values that may be absent -/

theorem optional_ofValue {v : Value} (hPresent : v ≠ .null) (read : Datum → Except DecodeError α) :
    optional read (ofValue v) = (read (ofValue v)).map some := by
  cases v with
  | null => contradiction
  | _ => rfl

/-- What may be absent and is there was not null. -/
theorem of_optional_ofValue {v : Value} {read : Datum → Except DecodeError α} {a : α}
    (hRead : optional read (ofValue v) = .ok (some a)) : v ≠ .null ∧ read (ofValue v) = .ok a := by
  by_cases hPresent : v = .null
  · subst hPresent
    cases hRead
  · rw [optional_ofValue hPresent] at hRead
    refine ⟨hPresent, ?_⟩
    cases hStep : read (ofValue v) with
    | error e =>
        rw [hStep] at hRead
        cases hRead
    | ok b =>
        rw [hStep] at hRead
        cases hRead
        rfl

/-! ## Lists -/

theorem listOf_ofValue_list (read : Datum → Except DecodeError α) (items : List Value) :
    listOf read (ofValue (.list items)) = (items.map ofValue).mapM read := by
  rw [← ofItems_eq_map]
  rfl

/-- A list is read again when its items are. -/
theorem listOf_ofValue_map {read : Datum → Except DecodeError α} {write : α → Value}
    {items : List α} (hItems : ∀ item ∈ items, read (ofValue (write item)) = .ok item) :
    listOf read (ofValue (.list (items.map write))) = .ok items := by
  rw [listOf_ofValue_list, List.map_map]
  exact mapM_map_eq_ok hItems

/-- Only lists of values are read as lists. -/
theorem exists_of_mem_listOf {read : Datum → Except DecodeError α} {v : Value} {items : List α}
    (hRead : listOf read (ofValue v) = .ok items) {item : α} (hItem : item ∈ items) :
    ∃ values, v = .list values ∧ ∃ value ∈ values, read (ofValue value) = .ok item := by
  cases v with
  | list values =>
      rw [listOf_ofValue_list] at hRead
      obtain ⟨d, hDatum, hStep⟩ := exists_of_mem_mapM hRead hItem
      obtain ⟨value, hValue, rfl⟩ := List.mem_map.mp hDatum
      exact ⟨values, rfl, value, hValue, hStep⟩
  | _ => cases hRead

/-! ## Records -/

/-- Only objects are read as records. -/
theorem entries_ofValue_eq_ok_iff {v : Value} {pairs : List (Datum × Datum)} :
    entries (ofValue v) = .ok pairs ↔
      ∃ written, v = .object written ∧ pairs = ofEntries written := by
  rw [entries, expect_eq_ok_iff]
  cases v with
  | object written => simp [ofValue, entries?, eq_comm]
  | _ => simp [ofValue, entries?]

/-- A record falls into its known entries, which do not repeat, and the others. -/
theorem splitKnown_ofEntries_iff {known : List String} {written : Entries Value}
    {found others : List (String × Datum)} :
    splitKnown known (ofEntries written) = .ok (found, others) ↔
      Entries.Distinct (Entries.among known written) ∧
        found = Entries.mapValues ofValue (Entries.among known written) ∧
        others = Entries.mapValues ofValue (Entries.outside known written) := by
  induction written generalizing found others with
  | nil =>
      show Except.ok ([], []) = Except.ok (found, others) ↔ _
      simp [Entries.among, Entries.outside, Entries.mapValues, Entries.distinct_nil, eq_comm]
  | cons entry rest ih =>
      obtain ⟨name, v⟩ := entry
      have hName : entryName known (.atom (.string name)) = .ok name := rfl
      rw [ofEntries, splitKnown, hName]
      simp only [bind_eq_ok_iff, Except.ok.injEq, exists_eq_left', Prod.exists, ih, and_assoc,
        exists_and_left, exists_eq_left]
      by_cases hKnown : name ∈ known
      · rw [if_pos (List.contains_iff_mem.mpr hKnown), Entries.among_cons_of_mem hKnown,
          Entries.outside_cons_of_mem hKnown, Entries.lookup_mapValues, Option.isSome_map,
          Entries.distinct_cons_iff]
        by_cases hRepeated : ((Entries.among known rest).lookup name).isSome
        · simp [hRepeated]
        · simp [hRepeated, Entries.mapValues, eq_comm]
      · rw [if_neg (fun hContains => hKnown (List.contains_iff_mem.mp hContains)),
          Entries.among_cons_of_not_mem hKnown, Entries.outside_cons_of_not_mem hKnown]
        simp [Entries.mapValues, eq_comm]

/-! ## Fields of a record -/

namespace Slots

variable {known : List String} {written : Entries Value} {field : String} {a : α}
  {read : Datum → Except DecodeError α}

/-- The known fields of a written record. -/
def ofWritten (known : List String) (written : Entries Value) : Slots where
  found := Entries.mapValues ofValue (Entries.among known written)

theorem lookup_ofWritten (hKnown : field ∈ known) :
    (ofWritten known written).found.lookup field = (written.lookup field).map ofValue := by
  show (Entries.mapValues ofValue (Entries.among known written)).lookup field = _
  rw [Entries.lookup_mapValues, Entries.lookup_among hKnown]

/-- A field that has to be there is read again when it is written. -/
theorem required_eq_ok (write : α → Value) (hKnown : field ∈ known)
    (hWritten : written.lookup field = some (write a)) (hRead : read (ofValue (write a)) = .ok a) :
    (ofWritten known written).required field read = .ok a := by
  rw [required, lookup_ofWritten hKnown, hWritten]
  exact hRead

/-- A field that has a default is read again when it is written. -/
theorem withDefault_eq_ok (write : α → Value) {default : α} (hKnown : field ∈ known)
    (hWritten : written.lookup field = some (write a)) (hRead : read (ofValue (write a)) = .ok a) :
    (ofWritten known written).withDefault field default read = .ok a := by
  rw [withDefault, lookup_ofWritten hKnown, hWritten]
  exact hRead

/-- A field that may be absent is read again unless it is written as null. -/
theorem optional_eq_ok (write : α → Value) {a : Option α} (hKnown : field ∈ known)
    (hWritten : written.lookup field = a.map write)
    (hRead : ∀ b, a = some b → write b ≠ .null ∧ read (ofValue (write b)) = .ok b) :
    (ofWritten known written).optional field read = .ok a := by
  rw [optional, withDefault, lookup_ofWritten hKnown, hWritten]
  cases a with
  | none => rfl
  | some b =>
      obtain ⟨hPresent, hStep⟩ := hRead b rfl
      show Datum.optional read (ofValue (write b)) = _
      rw [optional_ofValue hPresent, hStep]
      rfl

/-- A flag is read again, and does not hold where it is not written. -/
theorem flag_eq_ok {flag : Bool} (hKnown : field ∈ known)
    (hWritten : written.lookup field = Value.flag? flag) :
    (ofWritten known written).withDefault field false bool = .ok flag := by
  rw [withDefault, lookup_ofWritten hKnown, hWritten]
  cases flag <;> rfl

/-- A list is read again when its items are, and is empty where it is not written. -/
theorem list_eq_ok (write : α → Value) {items : List α} (hKnown : field ∈ known)
    (hWritten : written.lookup field = Value.filled? (items.map write))
    (hRead : ∀ item ∈ items, read (ofValue (write item)) = .ok item) :
    (ofWritten known written).withDefault field [] (listOf read) = .ok items := by
  rw [withDefault, lookup_ofWritten hKnown, hWritten]
  cases items with
  | nil => rfl
  | cons first rest => exact listOf_ofValue_map hRead

/-- A free-form value that may be absent is read again. -/
theorem value_eq_ok {v : Option Value} (hKnown : field ∈ known)
    (hWritten : written.lookup field = v) (hValue : ∀ w, v = some w → w ≠ .null ∧ w.IsJson) :
    (ofWritten known written).optional field value = .ok v := by
  refine optional_eq_ok id hKnown ?_ fun w hSome => ?_
  · rw [Option.map_id]
    exact hWritten
  · obtain ⟨hPresent, hJson⟩ := hValue w hSome
    exact ⟨hPresent, value_ofValue hJson⟩

/-- What a field with a default is read as is the default or was written. -/
theorem of_withDefault {default : α} (hKnown : field ∈ known)
    (hRead : (ofWritten known written).withDefault field default read = .ok a) :
    a = default ∨ ∃ v, written.lookup field = some v ∧ read (ofValue v) = .ok a := by
  rw [withDefault, lookup_ofWritten hKnown] at hRead
  cases hFound : written.lookup field with
  | none =>
      rw [hFound] at hRead
      cases hRead
      exact .inl rfl
  | some v =>
      rw [hFound] at hRead
      exact .inr ⟨v, rfl, hRead⟩

/-- What an optional field is read as was written, and not as null. -/
theorem of_optional (hKnown : field ∈ known)
    (hRead : (ofWritten known written).optional field read = .ok (some a)) :
    ∃ v, written.lookup field = some v ∧ v ≠ .null ∧ read (ofValue v) = .ok a := by
  obtain hNone | ⟨v, hWritten, hPresent⟩ := of_withDefault hKnown hRead
  · cases hNone
  · exact ⟨v, hWritten, of_optional_ofValue hPresent⟩

/-- Where every double is a number, no free-form value is read as null. -/
theorem of_value {v : Option Value} (hFinite : Value.EntriesFinite written) (hKnown : field ∈ known)
    (hRead : (ofWritten known written).optional field value = .ok v) (w : Value)
    (hValue : v = some w) : w ≠ .null ∧ w.IsJson := by
  rw [hValue] at hRead
  obtain ⟨before, hWritten, hPresent, hStep⟩ := of_optional hKnown hRead
  have hNumbers : before.Finite :=
    Value.entriesFinite_iff.mp hFinite _ (Entries.mem_of_lookup hWritten)
  exact ⟨ne_null_of_value? hNumbers hPresent (expect_eq_ok_iff.mp hStep), isJson_of_value hStep⟩

end Slots

/-! ## Entries that are kept -/

/-- Entries that a reader of these names can have kept: names that it does not know, none
of them twice, with values that a JSON text can hold. -/
structure Kept (known : List String) (entries : Entries Value) : Prop where
  distinct : Entries.Distinct entries
  unknown : ∀ name ∈ Entries.keys entries, name ∉ known
  json : ∀ entry ∈ entries, entry.2.IsJson

/-- Read the free-form value of an entry. -/
def settleEntry (entry : String × Datum) : Except DecodeError (String × Value) := do
  return (entry.1, ← entry.2.settled)

/-- What was kept is kept again, in order and with its nulls. -/
theorem mapM_settleEntry {entries : Entries Value} (hJson : ∀ entry ∈ entries, entry.2.IsJson) :
    (Entries.mapValues ofValue entries).mapM settleEntry = .ok entries :=
  mapM_map_eq_ok fun entry hEntry => by
    show settled (ofValue entry.2) >>= _ = _
    rw [settled_ofValue (hJson entry hEntry)]
    rfl

theorem of_settleEntry {entry : String × Datum} {pair : String × Value}
    (hRead : settleEntry entry = .ok pair) : pair.1 = entry.1 ∧ pair.2.IsJson := by
  obtain ⟨v, hValue, hMade⟩ := bind_eq_ok_iff.mp hRead
  cases hMade
  exact ⟨rfl, isJson_of_settled hValue⟩

/-- What is kept of the entries that are not known can have been kept. -/
theorem kept_of_mapM_settleEntry {known : List String} {written : Entries Value}
    {pairs : Entries Value}
    (hRead : (Entries.mapValues ofValue (Entries.outside known written)).mapM settleEntry =
      .ok pairs) : Kept known (Entries.ofList pairs) := by
  have hPairs : ∀ pair ∈ pairs,
      pair.1 ∈ Entries.keys (Entries.outside known written) ∧ pair.2.IsJson := by
    intro pair hPair
    obtain ⟨entry, hEntry, hStep⟩ := exists_of_mem_mapM hRead hPair
    obtain ⟨hName, hJson⟩ := of_settleEntry hStep
    refine ⟨?_, hJson⟩
    rw [hName, ← Entries.keys_mapValues ofValue]
    exact List.mem_map_of_mem hEntry
  refine ⟨Entries.distinct_ofList pairs, fun name hName => ?_, fun pair hPair => ?_⟩
  · obtain ⟨pair, hPair, rfl⟩ := List.mem_map.mp hName
    exact Entries.not_mem_of_mem_keys_outside (hPairs pair (Entries.mem_of_mem_ofList hPair)).1
  · exact (hPairs pair (Entries.mem_of_mem_ofList hPair)).2

/-- What is kept of values that a JSON text can hold is kept in order and with its nulls. -/
theorem ofList_eq_outside {known : List String} {written : Entries Value} {pairs : Entries Value}
    (hJson : (Value.object written).IsJson)
    (hRead : (Entries.mapValues ofValue (Entries.outside known written)).mapM settleEntry =
      .ok pairs) : Entries.ofList pairs = Entries.outside known written := by
  obtain ⟨hDistinct, hValues⟩ := Value.isJson_object_iff.mp hJson
  have hOutside := @mapM_settleEntry (Entries.outside known written)
    fun entry hEntry => hValues entry (List.mem_filter.mp hEntry).1
  have hPairs : Entries.outside known written = pairs :=
    Except.ok.inj (hOutside.symm.trans hRead)
  rw [← hPairs, Entries.ofList_eq_self (Entries.distinct_outside hDistinct)]

namespace Kept

variable {known : List String} {extra : Entries Value} (hKept : Kept known extra)
  (table : List (String × Option Value))

include hKept

/-- A table of known names can be written in front of what was kept. -/
theorem distinct_append (hKnown : known.Nodup) (hTable : table.map Prod.fst = known) :
    Entries.Distinct (Entries.present table ++ extra) := by
  have hNames : (Entries.keys (Entries.present table)).Sublist known :=
    hTable ▸ Entries.keys_present_sublist
  rw [Entries.Distinct, Entries.keys, List.map_append, List.nodup_append']
  refine ⟨hKnown.sublist hNames, hKept.distinct, fun name hFirst hSecond => ?_⟩
  exact hKept.unknown name hSecond (hNames.subset hFirst)

theorem insertAll_eq_append (hKnown : known.Nodup) (hTable : table.map Prod.fst = known) :
    Entries.insertAll (Entries.present table) extra = Entries.present table ++ extra :=
  Entries.insertAll_eq_append (hKept.distinct_append table hKnown hTable)

/-- A JSON text can hold the table and what was kept. -/
theorem isJson_append (hKnown : known.Nodup) (hTable : table.map Prod.fst = known)
    (hJson : ∀ slot ∈ table, Value.HeldJson slot.2) :
    (Value.object (Entries.present table ++ extra)).IsJson := by
  refine Value.isJson_object_iff.mpr ⟨hKept.distinct_append table hKnown hTable, ?_⟩
  exact List.forall_mem_append.mpr ⟨Value.isJson_of_mem_present hJson, hKept.json⟩

/-- What was kept comes after the table as it was. -/
theorem outside_append (hTable : table.map Prod.fst = known) :
    Entries.outside known (Entries.present table ++ extra) = extra :=
  Entries.outside_append
    (fun _ hName => hTable ▸ Entries.keys_present_sublist.subset hName) hKept.unknown

/-- What was kept is kept again after the table. -/
theorem exists_mapM_settleEntry (hTable : table.map Prod.fst = known) :
    ∃ pairs, (Entries.mapValues ofValue
      (Entries.outside known (Entries.present table ++ extra))).mapM settleEntry = .ok pairs ∧
        extra = Entries.ofList pairs := by
  rw [hKept.outside_append table hTable]
  exact ⟨extra, mapM_settleEntry hKept.json, (Entries.ofList_eq_self hKept.distinct).symm⟩

/-- A name of the table has the value of its slot, if it is there. -/
theorem lookup_append (hKnown : known.Nodup) (hTable : table.map Prod.fst = known) {name : String}
    {v : Option Value} (hSlot : (name, v) ∈ table) :
    (Entries.present table ++ extra).lookup name = v := by
  have hName : name ∈ known := hTable ▸ List.mem_map_of_mem hSlot
  have hAmong : Entries.among known (Entries.present table ++ extra) = Entries.present table :=
    Entries.among_append
      (fun _ hFirst => hTable ▸ Entries.keys_present_sublist.subset hFirst) hKept.unknown
  rw [← Entries.lookup_among hName, hAmong]
  exact Entries.lookup_present (hTable ▸ hKnown) hSlot

end Kept
end Datum

end ContentSchema
