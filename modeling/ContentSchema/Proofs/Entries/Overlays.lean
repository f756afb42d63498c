import ContentSchema.Proofs.Entries.Writes

/-!
# Entries laid over entries

Entries are laid over others by combining the values of the names that both have.
The names of the base keep their places and the new names of the overlay follow in
their order, so the outcome is told by these names and by what stands under each.

* `Entries.mergeWith` lays entries over entries.
* `Entries.keys_mergeWith` and `Entries.lookup_mergeWith` tell the outcome.
* `Entries.mergeWith_assoc`, `Entries.mergeWith_self` and
  `Entries.mergeWith_mergeWith_self` carry laws of the combination over to whole
  entries.

All of this is about entries without a repeated name.  A name that an overlay
repeats is combined with itself, and the laws do NOT hold there.
-/

namespace ContentSchema
namespace Entries

variable {α : Type} {f : α → α → α} {base middle overlay top : Entries α}

/-- Lay entries over others: what both have is combined. -/
def mergeWith (f : α → α → α) (base overlay : Entries α) : Entries α :=
  updateAll Prod.fst
    (fun entry present =>
      match present with
      | some existing => f existing entry.2
      | none => entry.2)
    overlay base

/-- Entries are told by their names in order and by what is found under each. -/
theorem eq_of_lookup {first second : Entries α} (hDistinct : Distinct first)
    (hKeys : keys first = keys second)
    (hLookup : ∀ key, first.lookup key = second.lookup key) : first = second := by
  induction first generalizing second with
  | nil =>
      cases second with
      | nil => rfl
      | cons entry rest => exact absurd hKeys (List.cons_ne_nil _ _).symm
  | cons entry rest ih =>
      obtain ⟨name, value⟩ := entry
      cases second with
      | nil => simp at hKeys
      | cons other more =>
          obtain ⟨name', value'⟩ := other
          rw [keys_cons, keys_cons] at hKeys
          obtain ⟨rfl, hRest⟩ := List.cons.inj hKeys
          obtain ⟨hName, hDistinctRest⟩ := List.nodup_cons.mp hDistinct
          have hValue : value = value' := by simpa using hLookup name
          rw [hValue, ih hDistinctRest hRest]
          intro key
          by_cases hKey : key = name
          · -- The name in front is found in neither of the rests.
            rw [hKey, lookup_eq_none_iff.mpr hName, lookup_eq_none_iff.mpr (hRest ▸ hName)]
          · have hOther : (key == name) = false := by simpa using hKey
            simpa [List.lookup_cons, hOther] using hLookup key

theorem distinct_mergeWith (hBase : Distinct base) : Distinct (mergeWith f base overlay) :=
  distinct_updateAll hBase

/-- Names stand in the order in which they first occur. -/
theorem keys_mergeWith_eq_eraseDups (hBase : Distinct base) :
    keys (mergeWith f base overlay) = (keys base ++ keys overlay).eraseDups := by
  rw [mergeWith, keys_updateAll hBase]
  rfl

/-- The new names of the overlay follow those of the base. -/
theorem keys_mergeWith (hBase : Distinct base) (hOverlay : Distinct overlay) :
    keys (mergeWith f base overlay) =
      keys base ++ (keys overlay).filter (· ∉ keys base) := by
  have hNew : (keys overlay).removeAll (keys base) = (keys overlay).filter (· ∉ keys base) := by
    unfold List.removeAll
    exact List.filter_congr fun name _ => by simp
  rw [keys_mergeWith_eq_eraseDups hBase, List.eraseDups_append, hNew, eraseDups_eq_self hBase,
    eraseDups_eq_self (hOverlay.filter _)]

/-- A name that both have is found with the combined value, any other with its own. -/
theorem lookup_mergeWith (hOverlay : Distinct overlay) (key : String) :
    (mergeWith f base overlay).lookup key =
      Option.merge f (base.lookup key) (overlay.lookup key) := by
  rw [mergeWith, lookup_updateAll, filter_name_eq hOverlay]
  cases overlay.lookup key <;> cases base.lookup key <;> rfl

/-- A single entry with a new name goes to the end. -/
theorem mergeWith_singleton {entry : String × α} (hNew : entry.1 ∉ keys base) :
    mergeWith f base [entry] = base ++ [entry] :=
  update_of_not_mem hNew

/-- Laying over is associative where the combination is, name by name. -/
theorem mergeWith_assoc (hBase : Distinct base) (hMiddle : Distinct middle) (hTop : Distinct top)
    (hAssoc : ∀ key lower value upper, base.lookup key = some lower →
      middle.lookup key = some value → top.lookup key = some upper →
        f (f lower value) upper = f lower (f value upper)) :
    mergeWith f (mergeWith f base middle) top = mergeWith f base (mergeWith f middle top) := by
  apply eq_of_lookup (distinct_mergeWith (distinct_mergeWith hBase))
  · rw [keys_mergeWith (distinct_mergeWith hBase) hTop, keys_mergeWith hBase hMiddle,
      keys_mergeWith hBase (distinct_mergeWith hMiddle), keys_mergeWith hMiddle hTop,
      List.filter_append, List.filter_filter, List.append_assoc]
    congr 2
    apply List.filter_congr
    intro name _
    by_cases hName : name ∈ keys base <;> simp [hName]
  · intro key
    rw [lookup_mergeWith hTop, lookup_mergeWith hMiddle,
      lookup_mergeWith (distinct_mergeWith hMiddle), lookup_mergeWith hTop]
    cases hLower : base.lookup key with
    | none => simp
    | some lower =>
        cases hValue : middle.lookup key with
        | none => simp
        | some value =>
            cases hUpper : top.lookup key with
            | none => simp
            | some upper => exact congrArg some (hAssoc key lower value upper hLower hValue hUpper)

/-- Entries laid over themselves stay as they are where every value does. -/
theorem mergeWith_self (hBase : Distinct base)
    (hSelf : ∀ key value, base.lookup key = some value → f value value = value) :
    mergeWith f base base = base := by
  apply eq_of_lookup (distinct_mergeWith hBase)
  · rw [keys_mergeWith hBase hBase, List.filter_eq_nil_iff.mpr, List.append_nil]
    intro name hName
    simpa using hName
  · intro key
    rw [lookup_mergeWith hBase]
    cases hValue : base.lookup key with
    | none => rfl
    | some value => exact congrArg some (hSelf key value hValue)

/-- An overlay that is laid over the outcome again changes nothing, where it does not
change any value again. -/
theorem mergeWith_mergeWith_self (hBase : Distinct base) (hOverlay : Distinct overlay)
    (hAgain : ∀ key lower upper, base.lookup key = some lower →
      overlay.lookup key = some upper → f (f lower upper) upper = f lower upper)
    (hSelf : ∀ key value, overlay.lookup key = some value → f value value = value) :
    mergeWith f (mergeWith f base overlay) overlay = mergeWith f base overlay := by
  rw [mergeWith_assoc hBase hOverlay hOverlay, mergeWith_self hOverlay hSelf]
  intro key lower value upper hLower hValue hUpper
  obtain rfl := Option.some.inj (hValue.symm.trans hUpper)
  rw [hAgain key lower value hLower hValue, hSelf key value hValue]

/-- Of two values under one name an insertion keeps the new one. -/
theorem insertAll_eq_mergeWith (entries additions : Entries α) :
    insertAll entries additions = mergeWith (fun _ value => value) entries additions := by
  rw [insertAll_eq_updateAll, mergeWith]
  congr 1
  funext entry present
  cases present <;> rfl

end Entries
end ContentSchema
