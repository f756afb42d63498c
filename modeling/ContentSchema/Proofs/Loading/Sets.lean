import ContentSchema.Loading.Documents
import ContentSchema.Proofs.Walk.Result
import Mathlib.Data.List.Nodup

/-!
# Sets of documents

A set keeps its documents, their files and the positions of their names side by
side.  The three always tell of the same list of loaded documents.

* `DocumentSet.Holds` is the invariant that ties a set to a list.
* `DocumentSet.Holds.finds` says what is found under a name.
* `DocumentSet.Holds.add_eq_ok_iff` says when a document is added, and
  `DocumentSet.Holds.push` that the invariant is kept.
* `DocumentSet.Holds.foldlM_add_eq_ok_iff` says the same of a list of documents.

A document that is excluded still has to have a valid name; it does NOT have to
have a new one.
-/

namespace ContentSchema
namespace DocumentSet

variable {exclude : List String} {set grown : DocumentSet} {list more : List LoadedDocument}
  {loaded : LoadedDocument}

/-- All parts of the set tell of the listed documents, whose names differ. -/
structure Holds (set : DocumentSet) (list : List LoadedDocument) : Prop where
  documents : set.documents = list.map LoadedDocument.document
  paths : set.paths = list.map LoadedDocument.path
  /-- The index has the position of each name. -/
  index : ∀ name position, set.index.lookup name = some position ↔
    (list.map LoadedDocument.name)[position]? = some name
  distinct : (list.map LoadedDocument.name).Nodup

/-- The documents that are not excluded. -/
def kept (exclude : List String) (list : List LoadedDocument) : List LoadedDocument :=
  list.filter fun loaded => loaded.name ∉ exclude

theorem holds_nil (sources : List DocumentSource) : Holds { sources } [] :=
  ⟨rfl, rfl, fun _ _ => by simp, List.nodup_nil⟩

/-! ## Names -/

theorem Holds.lookup_eq_none_iff (hSet : set.Holds list) {name : String} :
    set.index.lookup name = none ↔ name ∉ list.map LoadedDocument.name := by
  rw [List.mem_iff_getElem?, Option.eq_none_iff_forall_ne_some]
  simp only [ne_eq, hSet.index, not_exists]

/-- What is found under a name is the document of that name, if one is listed. -/
structure Finds (set : DocumentSet) (list : List LoadedDocument) : Prop where
  contains : ∀ name, set.contains name = true ↔ name ∈ list.map LoadedDocument.name
  get? : ∀ loaded ∈ list, set.get? loaded.name = some loaded.document
  path? : ∀ loaded ∈ list, set.path? loaded.name = some loaded.path
  getNone : ∀ name, name ∉ list.map LoadedDocument.name → set.get? name = none
  pathNone : ∀ name, name ∉ list.map LoadedDocument.name → set.path? name = none

theorem Holds.finds (hSet : set.Holds list) : set.Finds list := by
  have hPosition (loaded : LoadedDocument) (hLoaded : loaded ∈ list) : ∃ position : Nat,
      set.index.lookup loaded.name = some position ∧ list[position]? = some loaded := by
    obtain ⟨position, hAt⟩ := List.mem_iff_getElem?.mp hLoaded
    refine ⟨position, (hSet.index _ _).mpr ?_, hAt⟩
    rw [List.getElem?_map, hAt]
    rfl
  constructor
  · intro name
    rw [contains, Entries.contains, Option.isSome_iff_ne_none, ne_eq, hSet.lookup_eq_none_iff,
      not_not]
  · intro loaded hLoaded
    obtain ⟨position, hLookup, hAt⟩ := hPosition loaded hLoaded
    rw [get?, hLookup, Option.bind_some, hSet.documents, List.getElem?_map, hAt]
    rfl
  · intro loaded hLoaded
    obtain ⟨position, hLookup, hAt⟩ := hPosition loaded hLoaded
    rw [path?, hLookup, Option.bind_some, hSet.paths, List.getElem?_map, hAt]
    rfl
  · intro name hName
    rw [get?, hSet.lookup_eq_none_iff.mpr hName]
    rfl
  · intro name hName
    rw [path?, hSet.lookup_eq_none_iff.mpr hName]
    rfl

/-! ## Adding documents -/

/-- A name stands at the same position before and after another one is added, or is
that one. -/
theorem getElem?_concat_eq_some_iff {names : List String} {last name : String}
    {position : Nat} :
    (names ++ [last])[position]? = some name ↔
      names[position]? = some name ∨ position = names.length ∧ name = last := by
  rcases Nat.lt_trichotomy position names.length with hBefore | rfl | hAfter
  · rw [List.getElem?_append_left hBefore]
    exact ⟨.inl, fun hAt => hAt.resolve_right fun ⟨hEnd, _⟩ => by omega⟩
  · simp [eq_comm]
  · rw [List.getElem?_append_right (by omega), List.getElem?_eq_none (by simp; omega),
      List.getElem?_eq_none (by omega)]
    simp only [reduceCtorEq, false_or, false_iff]
    omega

/-- A document with a new name goes to the end of all parts. -/
theorem Holds.push (hSet : set.Holds list) (hNew : loaded.name ∉ list.map LoadedDocument.name) :
    (set.push loaded).Holds (list ++ [loaded]) := by
  have hLength : set.documents.length = (list.map LoadedDocument.name).length := by
    rw [hSet.documents, List.length_map, List.length_map]
  constructor
  · rw [DocumentSet.push, hSet.documents, List.map_append]
    rfl
  · rw [DocumentSet.push, hSet.paths, List.map_append]
    rfl
  · intro name position
    rw [DocumentSet.push, List.map_append, List.map_singleton]
    dsimp only
    rw [hLength, getElem?_concat_eq_some_iff]
    by_cases hSame : name = loaded.name
    · -- The new name is at the end and nowhere else.
      subst hSame
      have hNowhere : (list.map LoadedDocument.name)[position]? ≠ some loaded.name :=
        fun hAt => hNew (List.mem_of_getElem? hAt)
      rw [Entries.lookup_insert_self, Option.some.injEq, or_iff_right hNowhere, eq_comm]
      exact (and_iff_left rfl).symm
    · rw [Entries.lookup_insert_of_ne hSame, hSet.index]
      simp [hSame]
  · rw [List.map_append, List.nodup_append]
    refine ⟨hSet.distinct, List.nodup_singleton _, ?_⟩
    rintro name hName _ hOwn rfl
    rw [List.map_singleton, List.mem_singleton] at hOwn
    exact hNew (hOwn ▸ hName)

theorem add_of_invalid (hName : isValidDocumentName loaded.name = false) :
    set.add exclude loaded = .error (.invalidName loaded.name loaded.path) := by
  rw [add, hName]
  rfl

theorem add_of_excluded (hName : isValidDocumentName loaded.name = true)
    (hExcluded : loaded.name ∈ exclude) : set.add exclude loaded = .ok set := by
  rw [add, hName, List.contains_iff_mem.mpr hExcluded]
  rfl

theorem add_of_not_excluded (hName : isValidDocumentName loaded.name = true)
    (hExcluded : loaded.name ∉ exclude) :
    set.add exclude loaded = match set.index.lookup loaded.name with
      | some position => .error (.duplicate loaded.name (set.paths[position]?.getD "") loaded.path)
      | none => .ok (set.push loaded) := by
  have hContains : exclude.contains loaded.name = false := by simpa using hExcluded
  rw [add, hName, hContains]
  rfl

/-- A document with a new name is added at the end. -/
theorem Holds.add_of_new (hSet : set.Holds list)
    (hName : isValidDocumentName loaded.name = true) (hExcluded : loaded.name ∉ exclude)
    (hNew : loaded.name ∉ list.map LoadedDocument.name) :
    set.add exclude loaded = .ok (set.push loaded) := by
  rw [add_of_not_excluded hName hExcluded, hSet.lookup_eq_none_iff.mpr hNew]

/-- A document is refused if there is another one of its name, and the files of both
are told. -/
theorem Holds.add_of_old (hSet : set.Holds list)
    (hName : isValidDocumentName loaded.name = true) (hExcluded : loaded.name ∉ exclude)
    {present : LoadedDocument} (hPresent : present ∈ list) (hSame : present.name = loaded.name) :
    set.add exclude loaded = .error (.duplicate loaded.name present.path loaded.path) := by
  have hPath := hSet.finds.path? present hPresent
  rw [path?, hSame] at hPath
  obtain ⟨position, hLookup, hAt⟩ := Option.bind_eq_some_iff.mp hPath
  rw [add_of_not_excluded hName hExcluded, hLookup]
  dsimp only
  rw [hAt]
  rfl

/-- When a document is added, and what becomes of the set. -/
theorem Holds.add_eq_ok_iff (hSet : set.Holds list) :
    set.add exclude loaded = .ok grown ↔
      isValidDocumentName loaded.name = true ∧
        (loaded.name ∈ exclude ∧ grown = set ∨
          loaded.name ∉ exclude ∧ loaded.name ∉ list.map LoadedDocument.name ∧
            grown = set.push loaded) := by
  by_cases hName : isValidDocumentName loaded.name = true
  · by_cases hExcluded : loaded.name ∈ exclude
    · rw [add_of_excluded hName hExcluded]
      simp [hName, hExcluded, eq_comm]
    · by_cases hNew : loaded.name ∈ list.map LoadedDocument.name
      · obtain ⟨present, hPresent, hSame⟩ := List.mem_map.mp hNew
        rw [hSet.add_of_old hName hExcluded hPresent hSame]
        simp [hExcluded, -List.mem_map, hNew]
      · rw [hSet.add_of_new hName hExcluded hNew]
        simp [hName, hExcluded, -List.mem_map, hNew, eq_comm]
  · rw [add_of_invalid (by simpa using hName)]
    simp [hName]

/-- Where names differ, a document has none of the names before it. -/
theorem new_of_nodup
    (hDistinct : ((list ++ [loaded] ++ more).map LoadedDocument.name).Nodup) :
    loaded.name ∉ list.map LoadedDocument.name := by
  rw [List.map_append, List.map_append] at hDistinct
  obtain ⟨_, _, hApart⟩ := List.nodup_append.mp hDistinct.of_append_left
  intro hName
  exact hApart _ hName _ List.mem_cons_self rfl

/-- Documents are added exactly if their names are valid and, as far as they are kept,
differ from each other and from those before. -/
theorem Holds.foldlM_add_eq_ok_iff (hSet : set.Holds list) :
    more.foldlM (add exclude) set = .ok grown ↔
      (∀ loaded ∈ more, isValidDocumentName loaded.name = true) ∧
        ((list ++ kept exclude more).map LoadedDocument.name).Nodup ∧
        grown = (kept exclude more).foldl DocumentSet.push set := by
  induction more generalizing set list with
  | nil =>
      rw [List.foldlM_nil, kept, List.filter_nil, List.append_nil, List.foldl_nil]
      constructor
      · intro hMade
        exact ⟨List.forall_mem_nil _, hSet.distinct, (Except.ok.inj hMade).symm⟩
      · rintro ⟨_, _, rfl⟩
        rfl
  | cons loaded rest ih =>
      simp only [List.foldlM_cons, bind_eq_ok_iff, hSet.add_eq_ok_iff, List.forall_mem_cons]
      by_cases hExcluded : loaded.name ∈ exclude
      · have hKept : kept exclude (loaded :: rest) = kept exclude rest :=
          List.filter_cons_of_neg (by simpa using hExcluded)
        rw [hKept]
        constructor
        · rintro ⟨next, ⟨hName, ⟨_, rfl⟩ | ⟨hOut, _⟩⟩, hRest⟩
          · obtain ⟨hNames, hMore⟩ := (ih hSet).mp hRest
            exact ⟨⟨hName, hNames⟩, hMore⟩
          · exact absurd hExcluded hOut
        · rintro ⟨⟨hName, hNames⟩, hMore⟩
          exact ⟨set, ⟨hName, .inl ⟨hExcluded, rfl⟩⟩, (ih hSet).mpr ⟨hNames, hMore⟩⟩
      · have hKept : kept exclude (loaded :: rest) = loaded :: kept exclude rest :=
          List.filter_cons_of_pos (by simpa using hExcluded)
        rw [hKept, List.foldl_cons, List.append_cons]
        constructor
        · rintro ⟨next, ⟨hName, ⟨hIn, _⟩ | ⟨_, hNew, rfl⟩⟩, hRest⟩
          · exact absurd hIn hExcluded
          · obtain ⟨hNames, hMore⟩ := (ih (hSet.push hNew)).mp hRest
            exact ⟨⟨hName, hNames⟩, hMore⟩
        · rintro ⟨⟨hName, hNames⟩, hDistinct, hGrown⟩
          have hNew := new_of_nodup hDistinct
          exact ⟨set.push loaded, ⟨hName, .inr ⟨hExcluded, hNew, rfl⟩⟩,
            (ih (hSet.push hNew)).mpr ⟨hNames, hDistinct, hGrown⟩⟩

/-- The set that documents are added to lists them after those before. -/
theorem Holds.foldl_push (hSet : set.Holds list)
    (hDistinct : ((list ++ more).map LoadedDocument.name).Nodup) :
    (more.foldl DocumentSet.push set).Holds (list ++ more) := by
  induction more generalizing set list with
  | nil =>
      rw [List.append_nil]
      exact hSet
  | cons loaded rest ih =>
      rw [List.append_cons] at hDistinct ⊢
      rw [List.foldl_cons]
      exact ih (hSet.push (new_of_nodup hDistinct)) hDistinct

end DocumentSet
end ContentSchema
