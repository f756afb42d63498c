import ContentSchema.Proofs.Entries.Overlays
import ContentSchema.Value.Merge

/-!
# Values laid over values

An overlay is laid over a base by recursion on objects.  What becomes of it is told
without the recursion, by the values at the paths of keys that lead through objects
on both sides.

* `Value.induction` is induction over the objects inside a value.
* `Value.merge_object` and `Value.merge_of_not_object` are the two cases of a merge.
* `Value.MergesTo` says what two values at one place amount to.
* `Value.getPath?_merge` says it of every path of a merged value.

Lists are values like any other here: a path does NOT lead into them.
-/

namespace ContentSchema
namespace Value

/-! ## Objects inside a value -/

mutual

/-- A statement about values follows once it holds of what is no object, and of an
object if it holds of the values in it. -/
theorem induction {P : Value → Prop} (other : ∀ v : Value, v.isObject = false → P v)
    (object : ∀ entries : Entries Value, (∀ entry ∈ entries, P entry.2) → P (.object entries)) :
    ∀ v : Value, P v
  | .null => other .null rfl
  | .bool b => other (.bool b) rfl
  | .int n => other (.int n) rfl
  | .double d => other (.double d) rfl
  | .string s => other (.string s) rfl
  | .list items => other (.list items) rfl
  | .object entries => object entries (inductionEntries other object entries)

theorem inductionEntries {P : Value → Prop} (other : ∀ v : Value, v.isObject = false → P v)
    (object : ∀ entries : Entries Value, (∀ entry ∈ entries, P entry.2) → P (.object entries)) :
    ∀ entries : Entries Value, ∀ entry ∈ entries, P entry.2
  | [], _, hEntry => nomatch hEntry
  | (_, value) :: rest, entry, hEntry => by
      rcases List.mem_cons.mp hEntry with hHere | hRest
      · rw [hHere]
        exact induction other object value
      · exact inductionEntries other object rest entry hRest

end

theorem isObject_eq_true_iff {v : Value} : v.isObject = true ↔ ∃ entries, v = object entries := by
  cases v <;> simp [isObject]

/-- What is found in a well-formed object is well formed. -/
theorem WellFormed.of_lookup {entries : Entries Value} (hObject : (object entries).WellFormed)
    {key : String} {value : Value} (hValue : entries.lookup key = some value) :
    value.WellFormed :=
  entriesWellFormed_iff.mp hObject.2 _ (Entries.mem_of_lookup hValue)

/-! ## One step -/

theorem mergeEntries_eq_mergeWith (base overlay : Entries Value) :
    mergeEntries base overlay = Entries.mergeWith merge base overlay := by
  induction overlay generalizing base with
  | nil => rfl
  | cons entry rest ih =>
      rw [mergeEntries, ih, Entries.mergeWith, Entries.mergeWith, Entries.updateAll_cons]
      congr 2
      funext present
      cases present <;> rfl

/-- Objects are merged key by key. -/
theorem merge_object (lower upper : Entries Value) :
    (object lower).merge (object upper) = object (Entries.mergeWith merge lower upper) := by
  rw [merge, mergeEntries_eq_mergeWith]

/-- In every other case the overlay remains. -/
theorem merge_of_not_object {base overlay : Value}
    (h : base.isObject = false ∨ overlay.isObject = false) : base.merge overlay = overlay := by
  cases overlay <;> cases base <;> simp_all [merge, isObject]

/-! ## Paths -/

/-- There is an object at the path. -/
def ObjectAt (v : Value) (path : List String) : Prop :=
  ∃ entries, v.getPath? path = some (.object entries)

/-- There is an object wherever the path leads through. -/
def LeadsTo (v : Value) (path : List String) : Prop :=
  ∀ above, above <+: path → above ≠ path → v.ObjectAt above

theorem leadsTo_nil (v : Value) : v.LeadsTo [] := by
  intro above hAbove hNe
  exact absurd (List.prefix_nil.mp hAbove) hNe

theorem objectAt_object {entries : Entries Value} {key : String} {value : Value}
    (hValue : entries.lookup key = some value) (rest : List String) :
    (object entries).ObjectAt (key :: rest) ↔ value.ObjectAt rest := by
  rw [ObjectAt, getPath?_object hValue]
  rfl

/-- A path leads through an object as far as it leads on behind the first key. -/
theorem leadsTo_object {entries : Entries Value} {key : String} {value : Value}
    (hValue : entries.lookup key = some value) (rest : List String) :
    (object entries).LeadsTo (key :: rest) ↔ value.LeadsTo rest := by
  constructor
  · intro hLeads above hAbove hNe
    rw [← objectAt_object hValue]
    refine hLeads (key :: above) (List.cons_prefix_cons.mpr ⟨rfl, hAbove⟩) ?_
    simpa using hNe
  · intro hLeads above hAbove hNe
    rcases List.prefix_cons_iff.mp hAbove with rfl | ⟨below, rfl, hBelow⟩
    · exact ⟨entries, rfl⟩
    · rw [objectAt_object hValue]
      exact hLeads below hBelow fun hSame => hNe (by rw [hSame])

theorem getPath?_object_of_none {entries : Entries Value} {key : String}
    (hNone : entries.lookup key = none) (rest : List String) :
    (object entries).getPath? (key :: rest) = none := by
  show (entries.lookup key).bind (fun child => child.getPath? rest) = none
  rw [hNone]
  rfl

theorem exists_lookup_of_getPath? {entries : Entries Value} {key : String}
    {rest : List String} {value : Value}
    (hValue : (object entries).getPath? (key :: rest) = some value) :
    ∃ child, entries.lookup key = some child := by
  cases hChild : entries.lookup key with
  | none =>
      rw [getPath?_object_of_none hChild] at hValue
      contradiction
  | some child => exact ⟨child, rfl⟩

/-- Behind a key stands only what is found under it. -/
theorem getPath?_congr {entries others : Entries Value} {key : String}
    (hSame : entries.lookup key = others.lookup key) {rest : List String} :
    (object entries).getPath? (key :: rest) = (object others).getPath? (key :: rest) := by
  show (entries.lookup key).bind (fun child => child.getPath? rest) = _
  rw [hSame]
  rfl

/-- A path with a first key leads through objects only. -/
theorem LeadsTo.isObject {v : Value} {key : String} {rest : List String}
    (hLeads : v.LeadsTo (key :: rest)) : ∃ entries, v = object entries := by
  obtain ⟨entries, hHere⟩ := hLeads [] List.nil_prefix (List.cons_ne_nil _ _).symm
  exact ⟨entries, Option.some.inj hHere⟩

/-- What a merge makes of that which both sides have at one place, if anything. -/
structure MergesTo (base overlay merged : Option Value) : Prop where
  /-- Two objects become one, with the keys of the base and then the new ones of the
  overlay. -/
  objects : ∀ lower upper, base = some (.object lower) → overlay = some (.object upper) →
    ∃ entries, merged = some (.object entries) ∧
      Entries.keys entries =
        Entries.keys lower ++ (Entries.keys upper).filter (· ∉ Entries.keys lower)
  /-- In every other case the overlay counts if it has anything there. -/
  overlaid : ¬((∃ lower, base = some (.object lower)) ∧ ∃ upper, overlay = some (.object upper)) →
    ∀ value, overlay = some value → merged = some value
  kept : overlay = none → merged = base

theorem mergesTo_none_left (overlay : Option Value) : MergesTo none overlay overlay where
  objects := fun _ _ hLower => nomatch hLower
  overlaid := fun _ _ hValue => hValue
  kept := fun hNone => hNone

theorem mergesTo_none_right (base : Option Value) : MergesTo base none base where
  objects := fun _ _ _ hUpper => nomatch hUpper
  overlaid := fun _ _ hValue => nomatch hValue
  kept := fun _ => rfl

/-- The root of a merged value. -/
theorem mergesTo_merge {base overlay : Value} (hBase : base.WellFormed)
    (hOverlay : overlay.WellFormed) :
    MergesTo (some base) (some overlay) (some (base.merge overlay)) where
  objects := by
    intro lower upper hLower hUpper
    obtain rfl := Option.some.inj hLower
    obtain rfl := Option.some.inj hUpper
    exact ⟨_, congrArg some (merge_object lower upper), Entries.keys_mergeWith hBase.1 hOverlay.1⟩
  overlaid := by
    intro hNot value hValue
    obtain rfl := Option.some.inj hValue
    refine congrArg some (merge_of_not_object ?_)
    by_contra hObjects
    rw [not_or, Bool.not_eq_false, Bool.not_eq_false, isObject_eq_true_iff,
      isObject_eq_true_iff] at hObjects
    obtain ⟨⟨lower, rfl⟩, upper, hUpper⟩ := hObjects
    exact hNot ⟨⟨lower, rfl⟩, upper, congrArg some hUpper⟩
  kept := fun hNone => nomatch hNone

/-- **Paths of a merged value.**  At a path that leads through objects on both sides,
the merged value has the merge of what both sides have there. -/
theorem getPath?_merge {base overlay : Value} (hBase : base.WellFormed)
    (hOverlay : overlay.WellFormed) {path : List String} (hFrom : base.LeadsTo path)
    (hOver : overlay.LeadsTo path) :
    MergesTo (base.getPath? path) (overlay.getPath? path)
      ((base.merge overlay).getPath? path) := by
  induction path generalizing base overlay with
  | nil => exact mergesTo_merge hBase hOverlay
  | cons key rest ih =>
      obtain ⟨lower, rfl⟩ := hFrom.isObject
      obtain ⟨upper, rfl⟩ := hOver.isObject
      have hMerged : (Entries.mergeWith merge lower upper).lookup key =
          Option.merge merge (lower.lookup key) (upper.lookup key) :=
        Entries.lookup_mergeWith hOverlay.1 key
      rw [merge_object]
      cases hLower : lower.lookup key with
      | none =>
          rw [hLower, Option.merge_none_left] at hMerged
          rw [getPath?_object_of_none hLower, getPath?_congr hMerged]
          exact mergesTo_none_left _
      | some value =>
          cases hUpper : upper.lookup key with
          | none =>
              rw [hUpper, Option.merge_none_right] at hMerged
              rw [getPath?_object_of_none hUpper, getPath?_congr hMerged]
              exact mergesTo_none_right _
          | some other =>
              rw [hLower, hUpper] at hMerged
              rw [getPath?_object hLower, getPath?_object hUpper, getPath?_object hMerged]
              exact ih (hBase.of_lookup hLower) (hOverlay.of_lookup hUpper)
                ((leadsTo_object hLower rest).mp hFrom) ((leadsTo_object hUpper rest).mp hOver)

/-- The configuration of a number column. -/
def numberConfig : Value :=
  .object
    [ ("size", .int 10),
      ("range", .object [("lower", .int 0), ("upper", .list [.int 5, .int 9])]) ]

/-- Another one, with a range of its own. -/
def rangeConfig : Value :=
  .object [("required", .bool true), ("range", .object [("step", .int 2), ("upper", .null)])]

/-- The ranges are merged, and in the merged range a null replaces a list. -/
theorem getPath?_merge_range :
    MergesTo (numberConfig.getPath? ["range"]) (rangeConfig.getPath? ["range"])
        ((numberConfig.merge rangeConfig).getPath? ["range"]) ∧
      (numberConfig.merge rangeConfig).getPath? ["range", "upper"] = some .null := by
  have hNumber : numberConfig.WellFormed := by
    simp [numberConfig, WellFormed, EntriesWellFormed, ItemsWellFormed, Entries.Distinct]
  have hRange : rangeConfig.WellFormed := by
    simp [rangeConfig, WellFormed, EntriesWellFormed, Entries.Distinct]
  have hFrom (rest : List String) :
      numberConfig.LeadsTo ("range" :: rest) ↔ (Value.LeadsTo _ rest) := leadsTo_object rfl rest
  have hOver (rest : List String) :
      rangeConfig.LeadsTo ("range" :: rest) ↔ (Value.LeadsTo _ rest) := leadsTo_object rfl rest
  constructor
  · exact getPath?_merge hNumber hRange ((hFrom []).mpr (leadsTo_nil _))
      ((hOver []).mpr (leadsTo_nil _))
  · refine (getPath?_merge hNumber hRange ((hFrom _).mpr ((leadsTo_object rfl _).mpr
      (leadsTo_nil _))) ((hOver _).mpr ((leadsTo_object rfl _).mpr (leadsTo_nil _)))).overlaid ?_
      .null rfl
    have hList : numberConfig.getPath? ["range", "upper"] = some (.list [.int 5, .int 9]) := rfl
    rintro ⟨⟨_, hLower⟩, _⟩
    rw [hList] at hLower
    cases hLower

end Value
end ContentSchema
