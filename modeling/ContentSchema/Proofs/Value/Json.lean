import ContentSchema.Proofs.Datum.Reading
import ContentSchema.Proofs.Pass.Conditions
import ContentSchema.Proofs.Value.Merge

/-!
# What keeps values JSON

A JSON text can hold what is made of values that it can hold: entries that are written into
an object, an overlay that is laid over a base, and a condition whose fields are renamed.

* `Value.isJson_insertAll` is about writing, `Value.isJson_merge` about merging.
* `Condition.isJson_rename` is about renaming, which makes no condition null either.

An object in front of which an entry is put may repeat its name, so that is NOT among these.
-/

namespace ContentSchema
namespace Value

/-- Writing into an object repeats no name. -/
theorem isJson_insertAll {entries additions : Entries Value} (hEntries : (object entries).IsJson)
    (hAdditions : ∀ entry ∈ additions, entry.2.IsJson) :
    (object (Entries.insertAll entries additions)).IsJson := by
  obtain ⟨hDistinct, hValues⟩ := isJson_object_iff.mp hEntries
  refine isJson_object_iff.mpr ⟨Entries.distinct_insertAll hDistinct, fun entry hEntry => ?_⟩
  rcases Entries.mem_of_mem_insertAll hDistinct hEntry with hBefore | hWritten
  · exact hValues entry hBefore
  · exact hAdditions entry hWritten

theorem isJson_insert {name : String} {v : Value} {entries : Entries Value}
    (hEntries : (object entries).IsJson) (hValue : v.IsJson) :
    (object (Entries.insert name v entries)).IsJson :=
  isJson_insertAll hEntries (List.forall_mem_singleton.mpr hValue : ∀ entry ∈ [(name, v)], _)

/-- What is laid over a value leaves one that a JSON text can hold. -/
theorem isJson_merge {base overlay : Value} (hBase : base.IsJson) (hOverlay : overlay.IsJson) :
    (base.merge overlay).IsJson := by
  induction overlay using Value.induction generalizing base with
  | other overlay hOther =>
      rw [merge_of_not_object (.inr hOther)]
      exact hOverlay
  | object upper ih =>
      cases base with
      | object lower =>
          obtain ⟨hLower, hLowerValues⟩ := isJson_object_iff.mp hBase
          obtain ⟨hUpper, hUpperValues⟩ := isJson_object_iff.mp hOverlay
          have hMerged : Entries.Distinct (Entries.mergeWith merge lower upper) :=
            Entries.distinct_mergeWith hLower
          rw [merge_object]
          refine isJson_object_iff.mpr ⟨hMerged, ?_⟩
          rintro ⟨key, v⟩ hEntry
          have hFound := (Entries.mem_iff_lookup hMerged).mp hEntry
          rw [Entries.lookup_mergeWith hUpper] at hFound
          -- What stands under a name is merged, or comes from one side as it was.
          rcases hBelow : lower.lookup key with _ | below <;>
            rcases hAbove : upper.lookup key with _ | above <;> rw [hBelow, hAbove] at hFound <;>
            cases hFound
          · exact hUpperValues _ (Entries.mem_of_lookup hAbove)
          · exact hLowerValues _ (Entries.mem_of_lookup hBelow)
          · exact ih _ (Entries.mem_of_lookup hAbove)
              (hLowerValues _ (Entries.mem_of_lookup hBelow))
              (hUpperValues _ (Entries.mem_of_lookup hAbove))
      | _ =>
          rw [merge_of_not_object (.inl rfl)]
          exact hOverlay

end Value

namespace Condition

theorem rename_ne_null {names : Entries String} {v : Value} (hValue : v ≠ .null) :
    rename names v ≠ .null := by
  cases v with
  | null => contradiction
  | _ => simp [rename]

mutual

/-- A condition whose fields are renamed stays one that a JSON text can hold. -/
theorem isJson_rename (names : Entries String) : ∀ {v : Value}, v.IsJson → (rename names v).IsJson
  | .null, hValue => hValue
  | .bool _, hValue => hValue
  | .int _, hValue => hValue
  | .double _, hValue => hValue
  | .string _, _ => Value.isJson_string _
  | .list items, hValue =>
      Value.isJson_list_iff.mpr (isJson_renameItems names (Value.isJson_list_iff.mp hValue))
  | .object entries, hValue => by
      obtain ⟨hDistinct, hValues⟩ := Value.isJson_object_iff.mp hValue
      refine Value.isJson_object_iff.mpr ⟨?_, isJson_renameEntries names hValues⟩
      rw [Entries.Distinct, keys_renameEntries]
      exact hDistinct

theorem isJson_renameItems (names : Entries String) : ∀ {items : List Value},
    (∀ item ∈ items, item.IsJson) → ∀ item ∈ renameItems names items, item.IsJson
  | [], _ => nofun
  | item :: rest, hItems => by
      obtain ⟨hItem, hRest⟩ := List.forall_mem_cons.mp hItems
      exact List.forall_mem_cons.mpr ⟨isJson_rename names hItem, isJson_renameItems names hRest⟩

theorem isJson_renameEntries (names : Entries String) : ∀ {entries : Entries Value},
    (∀ entry ∈ entries, entry.2.IsJson) → ∀ entry ∈ renameEntries names entries, entry.2.IsJson
  | [], _ => nofun
  | (_, v) :: rest, hEntries => by
      obtain ⟨hValue, hRest⟩ := List.forall_mem_cons.mp hEntries
      exact List.forall_mem_cons.mpr ⟨isJson_rename names hValue, isJson_renameEntries names hRest⟩

end

end Condition
end ContentSchema
