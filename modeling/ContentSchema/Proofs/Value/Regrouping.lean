import ContentSchema.Proofs.Value.Merge

/-!
# Regrouping overlays

Three values laid over each other give the same whichever two are merged first,
unless the one in the middle separates the others: where it is no object and both
others are, the upper one replaces everything if it is laid over the middle one
first, and is merged into the lower one if it is not.

* `Value.Separates` says that the middle one does so at a path.
* `Value.Regroups` says the same without paths, by recursion on all three.
* `Value.regroups_iff` compares the two.
* `Value.Regroups.merge_merge` is the law, and `Value.merge_merge_of_not_separates` the
  law in terms of paths.
* `Value.merge_self` and `Value.merge_merge_self` say what becomes of an overlay that is
  applied again.

That no path is separated is NOT necessary for the two sides to agree: the upper
object may happen to replace what it is merged into.
-/

namespace ContentSchema
namespace Value

variable {lower middle upper : Value}

/-- At the path, which leads through objects in all three values, the middle one
has something that is no object and both others have objects. -/
structure Separates (lower middle upper : Value) (path : List String) : Prop where
  leadsLower : lower.LeadsTo path
  leadsMiddle : middle.LeadsTo path
  leadsUpper : upper.LeadsTo path
  lower : lower.ObjectAt path
  upper : upper.ObjectAt path
  middle : ∃ value, middle.getPath? path = some value ∧ value.isObject = false

/-- Nothing in the middle separates objects of the others: one of the others is no
object, or all three are and the same holds under each key that they share. -/
inductive Regroups : Value → Value → Value → Prop where
  | lower {lower middle upper : Value} (other : lower.isObject = false) :
      Regroups lower middle upper
  | upper {lower middle upper : Value} (other : upper.isObject = false) :
      Regroups lower middle upper
  | objects {lower middle upper : Entries Value}
      (shared : ∀ key below between above, lower.lookup key = some below →
        middle.lookup key = some between → upper.lookup key = some above →
          Regroups below between above) :
      Regroups (.object lower) (.object middle) (.object upper)

/-! ## Paths -/

theorem objectAt_nil_iff {v : Value} : v.ObjectAt [] ↔ v.isObject = true := by
  rw [isObject_eq_true_iff]
  exact ⟨fun ⟨entries, hHere⟩ => ⟨entries, Option.some.inj hHere⟩,
    fun ⟨entries, hHere⟩ => ⟨entries, congrArg some hHere⟩⟩

/-- Behind a shared key the middle value separates what it separates below. -/
theorem separates_object {lower middle upper : Entries Value} {key : String}
    {below between above : Value} (hBelow : lower.lookup key = some below)
    (hBetween : middle.lookup key = some between) (hAbove : upper.lookup key = some above)
    (rest : List String) :
    Separates (.object lower) (.object middle) (.object upper) (key :: rest) ↔
      Separates below between above rest := by
  constructor
  · rintro ⟨hLower, hMiddle, hUpper, hFirst, hLast, hOther⟩
    exact ⟨(leadsTo_object hBelow rest).mp hLower, (leadsTo_object hBetween rest).mp hMiddle,
      (leadsTo_object hAbove rest).mp hUpper, (objectAt_object hBelow rest).mp hFirst,
      (objectAt_object hAbove rest).mp hLast, by rwa [getPath?_object hBetween] at hOther⟩
  · rintro ⟨hLower, hMiddle, hUpper, hFirst, hLast, hOther⟩
    exact ⟨(leadsTo_object hBelow rest).mpr hLower, (leadsTo_object hBetween rest).mpr hMiddle,
      (leadsTo_object hAbove rest).mpr hUpper, (objectAt_object hBelow rest).mpr hFirst,
      (objectAt_object hAbove rest).mpr hLast, by rwa [getPath?_object hBetween]⟩

theorem Regroups.not_separates (h : Regroups lower middle upper) (path : List String) :
    ¬Separates lower middle upper path := by
  induction h generalizing path with
  | @lower lower middle upper other =>
      intro hSeparates
      cases path with
      | nil => simp [objectAt_nil_iff.mp hSeparates.lower] at other
      | cons key rest =>
          obtain ⟨entries, rfl⟩ := hSeparates.leadsLower.isObject
          simp [isObject] at other
  | @upper lower middle upper other =>
      intro hSeparates
      cases path with
      | nil => simp [objectAt_nil_iff.mp hSeparates.upper] at other
      | cons key rest =>
          obtain ⟨entries, rfl⟩ := hSeparates.leadsUpper.isObject
          simp [isObject] at other
  | @objects lower middle upper shared ih =>
      intro hSeparates
      cases path with
      | nil =>
          obtain ⟨value, hValue, hOther⟩ := hSeparates.middle
          obtain rfl := Option.some.inj hValue
          simp [isObject] at hOther
      | cons key rest =>
          -- The path is present in all three, so they share its first key.
          obtain ⟨_, hLower⟩ := hSeparates.lower
          obtain ⟨_, hMiddle, _⟩ := hSeparates.middle
          obtain ⟨_, hUpper⟩ := hSeparates.upper
          obtain ⟨below, hBelow⟩ := exists_lookup_of_getPath? hLower
          obtain ⟨between, hBetween⟩ := exists_lookup_of_getPath? hMiddle
          obtain ⟨above, hAbove⟩ := exists_lookup_of_getPath? hUpper
          exact ih key below between above hBelow hBetween hAbove rest
            ((separates_object hBelow hBetween hAbove rest).mp hSeparates)

/-- Where nothing is separated at any path, nothing is. -/
theorem regroups_of_not_separates (hNone : ∀ path, ¬Separates lower middle upper path) :
    Regroups lower middle upper := by
  induction lower using Value.induction generalizing middle upper with
  | other lower hOther => exact .lower hOther
  | object lower ih =>
      cases hUpper : upper.isObject with
      | false => exact .upper hUpper
      | true =>
          obtain ⟨upper, rfl⟩ := isObject_eq_true_iff.mp hUpper
          have hMiddle : middle.isObject = true := by
            by_contra hOther
            exact hNone [] ⟨leadsTo_nil _, leadsTo_nil _, leadsTo_nil _, ⟨lower, rfl⟩, ⟨upper, rfl⟩,
              middle, rfl, by simpa using hOther⟩
          obtain ⟨middle, rfl⟩ := isObject_eq_true_iff.mp hMiddle
          refine .objects fun key below between above hBelow hBetween hAbove => ?_
          refine ih _ (Entries.mem_of_lookup hBelow) fun rest hSeparates => ?_
          exact hNone (key :: rest)
            ((separates_object hBelow hBetween hAbove rest).mpr hSeparates)

theorem regroups_iff :
    Regroups lower middle upper ↔ ∀ path, ¬Separates lower middle upper path :=
  ⟨fun h path => h.not_separates path, regroups_of_not_separates⟩

/-! ## The law -/

theorem Regroups.merge_merge (h : Regroups lower middle upper) (hLower : lower.WellFormed)
    (hMiddle : middle.WellFormed) (hUpper : upper.WellFormed) :
    (lower.merge middle).merge upper = lower.merge (middle.merge upper) := by
  induction h with
  | lower other => rw [merge_of_not_object (.inl other), merge_of_not_object (.inl other)]
  | upper other =>
      -- What is merged last replaces everything, on whatever it is laid.
      rw [merge_of_not_object (.inr other), merge_of_not_object (.inr other),
        merge_of_not_object (.inr other)]
  | objects shared ih =>
      rw [merge_object, merge_object, merge_object, merge_object, object.injEq]
      refine Entries.mergeWith_assoc hLower.1 hMiddle.1 hUpper.1 ?_
      intro key below between above hBelow hBetween hAbove
      exact ih key below between above hBelow hBetween hAbove (hLower.of_lookup hBelow)
        (hMiddle.of_lookup hBetween) (hUpper.of_lookup hAbove)

/-- **Regrouping.**  Where no path is separated by the value in the middle, it makes
no difference which two of three values are merged first, the order of keys
included. -/
theorem merge_merge_of_not_separates (hLower : lower.WellFormed) (hMiddle : middle.WellFormed)
    (hUpper : upper.WellFormed) (hNone : ∀ path, ¬Separates lower middle upper path) :
    (lower.merge middle).merge upper = lower.merge (middle.merge upper) :=
  (regroups_iff.mpr hNone).merge_merge hLower hMiddle hUpper

/-- A third configuration, in which the range has yet another key. -/
def boundConfig : Value :=
  .object [("range", .object [("upper", .int 7), ("open", .bool true)]), ("size", .int 20)]

/-- The ranges of the three configurations are merged whichever two come first, and
the null in the middle separates no objects. -/
theorem merge_merge_of_not_separates_range :
    (∀ path, ¬Separates numberConfig rangeConfig boundConfig path) ∧
      (numberConfig.merge rangeConfig).merge boundConfig =
        numberConfig.merge (rangeConfig.merge boundConfig) := by
  have hNumber : numberConfig.WellFormed := by
    simp [numberConfig, WellFormed, EntriesWellFormed, ItemsWellFormed, Entries.Distinct]
  have hRange : rangeConfig.WellFormed := by
    simp [rangeConfig, WellFormed, EntriesWellFormed, Entries.Distinct]
  have hBound : boundConfig.WellFormed := by
    simp [boundConfig, WellFormed, EntriesWellFormed, Entries.Distinct]
  have hRegroups : Regroups numberConfig rangeConfig boundConfig := by
    refine .objects fun key below between above hBelow hBetween hAbove => ?_
    -- The range is the only key that the first two share, and its own keys lead to
    -- no further objects.
    have hFirst := Entries.mem_keys_iff.mpr ⟨_, hBelow⟩
    have hSecond := Entries.mem_keys_iff.mpr ⟨_, hBetween⟩
    obtain rfl : key = "range" := by
      simp only [Entries.keys, List.map_cons, List.map_nil, List.mem_cons, List.not_mem_nil,
        or_false] at hFirst hSecond
      rcases hFirst with rfl | rfl
      · simp at hSecond
      · rfl
    cases hBelow
    cases hBetween
    cases hAbove
    refine .objects fun inner below between above hBelow hBetween hAbove => ?_
    have hInner := Entries.mem_of_lookup hAbove
    simp only [List.mem_cons, Prod.mk.injEq, List.not_mem_nil, or_false] at hInner
    rcases hInner with ⟨-, rfl⟩ | ⟨-, rfl⟩ <;> exact .upper rfl
  have hNone := regroups_iff.mp hRegroups
  exact ⟨hNone, merge_merge_of_not_separates hNumber hRange hBound hNone⟩

/-- A null between two objects makes a difference. -/
example :
    let lower := Value.object [("size", .int 10)]
    let upper := Value.object [("rows", .int 5)]
    ((lower.merge .null).merge upper).same upper = true ∧
      (lower.merge (Value.null.merge upper)).same
        (.object [("size", .int 10), ("rows", .int 5)]) = true := by
  decide

/-! ## Overlays applied again -/

/-- A value laid over itself stays as it is. -/
theorem merge_self {v : Value} (hFormed : v.WellFormed) : v.merge v = v := by
  induction v using Value.induction with
  | other v hOther => exact merge_of_not_object (.inl hOther)
  | object entries ih =>
      rw [merge_object, Entries.mergeWith_self hFormed.1]
      intro key value hValue
      exact ih _ (Entries.mem_of_lookup hValue) (hFormed.of_lookup hValue)

/-- An overlay does not separate itself from anything. -/
theorem regroups_self (lower upper : Value) : Regroups lower upper upper := by
  induction upper using Value.induction generalizing lower with
  | other upper hOther => exact .upper hOther
  | object upper ih =>
      cases hLower : lower.isObject with
      | false => exact .lower hLower
      | true =>
          obtain ⟨lower, rfl⟩ := isObject_eq_true_iff.mp hLower
          refine .objects fun key below between above _ hBetween hAbove => ?_
          obtain rfl := Option.some.inj (hBetween.symm.trans hAbove)
          exact ih _ (Entries.mem_of_lookup hBetween) below

/-- An overlay that is applied again changes nothing. -/
theorem merge_merge_self (hLower : lower.WellFormed) (hUpper : upper.WellFormed) :
    (lower.merge upper).merge upper = lower.merge upper := by
  rw [(regroups_self lower upper).merge_merge hLower hUpper hUpper, merge_self hUpper]

end Value
end ContentSchema
