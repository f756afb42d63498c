import ContentSchema.Proofs.Loading.Sources

/-!
# Directories listed in another order

A disk may list the entries of a directory in any order.  Everything that is looked
up in a tree is the same in both orders, and what is listed is only listed in
another one.

* `FileTree.Reordered` relates two trees that differ by these orders.
* `FileTree.Reordered.get_cases` says that a path leads to the same in both.
* `Load.Alike` says that an action finds the same in both, and its companions that
  chains and loops of such actions do.
* `FileTree.Reordered.alike_loadSet` says that documents are loaded alike.

The names in a directory are NOT listed alike, so folders have to be put in order
before anything is made of them.
-/

namespace ContentSchema

/-- A name has a value exactly if it is one of the names. -/
theorem Entries.isSome_lookup_iff {α : Type} {entries : Entries α} {name : String} :
    (entries.lookup name).isSome = true ↔ name ∈ keys entries := by
  induction entries with
  | nil => simp
  | cons entry rest ih =>
      obtain ⟨key, value⟩ := entry
      by_cases hKey : name = key
      · simp [hKey]
      · have hOther : (name == key) = false := by simpa using hKey
        rw [List.lookup_cons, hOther, keys_cons, List.mem_cons, or_iff_right hKey]
        exact ih

namespace FileTree

/-- The same files in the same directories, listed in any order. -/
inductive Reordered : FileTree → FileTree → Prop where
  | file (content : ByteArray) : Reordered (.file content) (.file content)
  | directory {entries others : List (String × FileTree)}
      (names : (Entries.keys entries).Perm (Entries.keys others))
      (inside : ∀ name tree other, entries.lookup name = some tree →
        others.lookup name = some other → Reordered tree other) :
      Reordered (.directory entries) (.directory others)

namespace Reordered

variable {tree other : FileTree} (hTrees : Reordered tree other)

omit hTrees in
theorem isSome_lookup_eq {entries others : List (String × FileTree)}
    (hNames : (Entries.keys entries).Perm (Entries.keys others)) (name : String) :
    (entries.lookup name).isSome = (others.lookup name).isSome := by
  rw [Bool.eq_iff_iff, Entries.isSome_lookup_iff, Entries.isSome_lookup_iff, hNames.mem_iff]

include hTrees

/-! ## Following paths -/

/-- Names lead to related things in both trees. -/
theorem find? (names : List String) :
    Option.Rel Reordered (tree.find? names) (other.find? names) := by
  induction names generalizing tree other with
  | nil =>
      cases hTrees with
      | file content => exact .some (.file content)
      | directory hNames hInside => exact .some (.directory hNames hInside)
  | cons name rest ih =>
      cases hTrees with
      | file content => exact .none
      | @directory entries others hNames hInside =>
          show Option.Rel Reordered ((entries.lookup name).bind fun tree => tree.find? rest)
            ((others.lookup name).bind fun tree => tree.find? rest)
          have hSame := isSome_lookup_eq hNames name
          cases hHere : entries.lookup name with
          | none =>
              rw [hHere, eq_comm, Option.isSome_none, Option.isSome_eq_false_iff,
                Option.isNone_iff_eq_none] at hSame
              rw [hSame]
              exact .none
          | some found =>
              rw [hHere, eq_comm] at hSame
              obtain ⟨there, hThere⟩ := Option.isSome_iff_exists.mp hSame
              rw [hThere]
              exact ih (hInside name found there hHere hThere)

theorem at? (place : Place) : Option.Rel Reordered (tree.at? place) (other.at? place) := by
  cases place with
  | inside names => exact hTrees.find? names
  | outside => exact .some (.directory (.refl _) fun _ _ _ hNone => by contradiction)

/-- What is at a place is nothing, the same file, or a directory with the same names. -/
theorem at?_cases (place : Place) :
    tree.at? place = none ∧ other.at? place = none ∨
      (∃ content, tree.at? place = some (.file content) ∧
        other.at? place = some (.file content)) ∨
      ∃ entries others, tree.at? place = some (.directory entries) ∧
        other.at? place = some (.directory others) ∧
        (Entries.keys entries).Perm (Entries.keys others) := by
  have hPlace := hTrees.at? place
  generalize tree.at? place = here at hPlace ⊢
  generalize other.at? place = there at hPlace ⊢
  cases hPlace with
  | none => exact .inl ⟨rfl, rfl⟩
  | some hFound =>
      cases hFound with
      | file content => exact .inr (.inl ⟨content, rfl, rfl⟩)
      | directory hNames _ => exact .inr (.inr ⟨_, _, rfl, rfl, hNames⟩)

/-- Each part of a path leads to the same place. -/
theorem step_eq : other.step = tree.step := by
  funext place part
  unfold step
  obtain ⟨hHere, hThere⟩ | ⟨content, hHere, hThere⟩ | ⟨entries, others, hHere, hThere, hNames⟩ :=
    hTrees.at?_cases place
  · rw [hHere, hThere]
  · rw [hHere, hThere]
  · rw [hHere, hThere]
    dsimp only
    rw [isSome_lookup_eq hNames part]

theorem follow_eq (path : String) : other.follow path = tree.follow path := by
  rw [follow, follow, hTrees.step_eq]

/-- A path leads nowhere for the same reason, to the same file, or to a directory with
the same names. -/
theorem get_cases (path : String) :
    (∃ e, tree.get path = .error e ∧ other.get path = .error e) ∨
      (∃ content, tree.get path = .ok (.file content) ∧
        other.get path = .ok (.file content)) ∨
      ∃ entries others, tree.get path = .ok (.directory entries) ∧
        other.get path = .ok (.directory others) ∧
        (Entries.keys entries).Perm (Entries.keys others) := by
  unfold get
  rw [hTrees.follow_eq]
  cases tree.follow path with
  | error e => exact .inl ⟨e, rfl, rfl⟩
  | ok place =>
      simp only [bind, Except.bind]
      obtain ⟨hHere, hThere⟩ | ⟨content, hHere, hThere⟩ |
          ⟨entries, others, hHere, hThere, hNames⟩ := hTrees.at?_cases place
      · rw [hHere, hThere]
        exact .inl ⟨_, rfl, rfl⟩
      · rw [hHere, hThere]
        exact .inr (.inl ⟨content, rfl, rfl⟩)
      · rw [hHere, hThere]
        exact .inr (.inr ⟨entries, others, rfl, rfl, hNames⟩)

/-! ## Questions -/

theorem hasDirectory_eq (path : String) : other.hasDirectory path = tree.hasDirectory path := by
  unfold hasDirectory OnTree.leadsTo
  obtain ⟨e, hHere, hThere⟩ | ⟨content, hHere, hThere⟩ | ⟨entries, others, hHere, hThere, _⟩ :=
    hTrees.get_cases path
  all_goals rw [hHere, hThere]

theorem hasFile_eq (path : String) : other.hasFile path = tree.hasFile path := by
  unfold hasFile OnTree.leadsTo
  obtain ⟨e, hHere, hThere⟩ | ⟨content, hHere, hThere⟩ | ⟨entries, others, hHere, hThere, _⟩ :=
    hTrees.get_cases path
  all_goals rw [hHere, hThere]

theorem content_eq (path : String) : other.content path = tree.content path := by
  unfold content
  obtain ⟨e, hHere, hThere⟩ | ⟨content, hHere, hThere⟩ | ⟨entries, others, hHere, hThere, _⟩ :=
    hTrees.get_cases path
  all_goals
    rw [hHere, hThere]
    try rfl

/-- A directory has the same names, in some order. -/
theorem names_cases (path : String) :
    (∃ e, tree.names path = .error e ∧ other.names path = .error e) ∨
      ∃ names others, tree.names path = .ok names ∧ other.names path = .ok others ∧
        names.Perm others := by
  unfold names
  obtain ⟨e, hHere, hThere⟩ | ⟨content, hHere, hThere⟩ |
      ⟨entries, others, hHere, hThere, hNames⟩ := hTrees.get_cases path
  · rw [hHere, hThere]
    exact .inl ⟨e, rfl, rfl⟩
  · rw [hHere, hThere]
    exact .inl ⟨_, rfl, rfl⟩
  · rw [hHere, hThere]
    exact .inr ⟨_, _, rfl, rfl, hNames⟩

end Reordered
end FileTree

/-! ## Actions -/

/-- An action that only reads, and finds the same on two trees. -/
structure Load.Alike {α : Type} (tree other : FileTree) (action : Load OnTree α) : Prop where
  readOnly : action.ReadOnly
  same : on other action = on tree action

namespace Load

variable {α β : Type} {tree other : FileTree}

theorem alike_pure (a : α) : Alike tree other (pure a) := ⟨readOnly_pure a, rfl⟩

theorem alike_throw (e : LoadError) : Alike tree other (throw e : Load OnTree α) :=
  ⟨readOnly_throw e, rfl⟩

theorem alike_ofExcept (result : Except LoadError α) : Alike tree other (ofExcept result) :=
  ⟨readOnly_ofExcept result, rfl⟩

theorem Alike.bind {action : Load OnTree α} {next : α → Load OnTree β}
    (hAction : Alike tree other action) (hNext : ∀ a, Alike tree other (next a)) :
    Alike tree other (action >>= next) := by
  refine ⟨hAction.readOnly.bind fun a => (hNext a).readOnly, ?_⟩
  rw [on_bind hAction.readOnly, on_bind hAction.readOnly, hAction.same]
  simp only [(hNext _).same]

theorem Alike.mapM {visit : α → Load OnTree β} (hVisit : ∀ a, Alike tree other (visit a))
    (items : List α) : Alike tree other (items.mapM visit) := by
  refine ⟨readOnly_mapM fun a => (hVisit a).readOnly, ?_⟩
  rw [on_mapM fun a => (hVisit a).readOnly, on_mapM fun a => (hVisit a).readOnly]
  simp only [(hVisit _).same]

theorem Alike.foldlM {visit : β → α → Load OnTree β}
    (hVisit : ∀ b a, Alike tree other (visit b a)) (items : List α) (b : β) :
    Alike tree other (items.foldlM visit b) := by
  refine ⟨readOnly_foldlM (fun b a => (hVisit b a).readOnly) b, ?_⟩
  rw [on_foldlM fun b a => (hVisit b a).readOnly, on_foldlM fun b a => (hVisit b a).readOnly]
  simp only [(hVisit _ _).same]

end Load

namespace FileTree.Reordered

open Load

variable {tree other : FileTree} (hTrees : Reordered tree other)

include hTrees

/-- Folders are put in order, so their documents are found in the same order. -/
theorem alike_documentFiles (directory : String) :
    Alike tree other (documentFiles directory) := by
  refine ⟨readOnly_documentFiles directory, ?_⟩
  have hTests : (fun name => other.hasDirectory (Path.join directory name)) =
      fun name => tree.hasDirectory (Path.join directory name) :=
    funext fun name => hTrees.hasDirectory_eq _
  rw [on_documentFiles, on_documentFiles, hTests, funext hTrees.hasFile_eq]
  obtain ⟨e, hHere, hThere⟩ | ⟨names, others, hHere, hThere, hNames⟩ := hTrees.names_cases directory
  · rw [hHere, hThere]
  · let found (names : List String) :=
      (names.filter fun name => tree.hasDirectory (Path.join directory name)).mergeSort
        fun a b => a ≤ b
    have hFound : found names = found others := by
      refine eq_of_perm_of_pairwise_le ?_ (pairwise_mergeSort_le _) (pairwise_mergeSort_le _)
      exact (List.mergeSort_perm _ _).trans
        ((hNames.filter _).trans (List.mergeSort_perm _ _).symm)
    rw [hHere, hThere]
    show Except.ok (((found others).map _).filter _) = Except.ok (((found names).map _).filter _)
    rw [hFound]

theorem alike_loadDocument (kind : ContentKind) (path : String) :
    Alike tree other (loadDocument kind path) := by
  have hText : Alike tree other (text path) :=
    ⟨readOnly_text path, by rw [on_text, on_text, hTrees.content_eq]⟩
  exact hText.bind fun _ => (alike_ofExcept _).bind fun _ => alike_pure _

theorem alike_documentFilesOfKind (root : String) (kind : ContentKind) :
    Alike tree other (documentFilesOfKind root kind) := by
  have hThere (path : String) : Alike tree other (always (Files.isDirectory path)) :=
    ⟨readOnly_isDirectory path, congrArg Except.ok (hTrees.hasDirectory_eq path)⟩
  refine (hThere _).bind fun isThere => ?_
  split
  · exact (hTrees.alike_documentFiles _).bind fun _ => alike_pure _
  · exact alike_pure _

theorem alike_loadBundle (path : String) : Alike tree other (loadBundle path) := by
  have hContent : Alike tree other (always (Files.content path)) :=
    ⟨readOnly_content path, congrArg Except.ok (hTrees.content_eq path)⟩
  refine hContent.bind fun found => ?_
  split
  · exact (alike_ofExcept _).bind fun _ => alike_pure _
  · exact alike_throw _
  · exact alike_throw _

/-- Of the names in a directory with a directory for each kind nothing is made. -/
theorem alike_documentFilesByKind (root : String) :
    Alike tree other (documentFilesByKind root) := by
  have hKinds := (Alike.mapM (hTrees.alike_documentFilesOfKind root) ContentKind.all).bind
    fun found => alike_pure found.flatten
  refine ⟨readOnly_documentFilesByKind root, ?_⟩
  unfold documentFilesByKind
  rw [on_bind (readOnly_names root), on_bind (readOnly_names root), on_names, on_names]
  obtain ⟨e, hHere, hThere⟩ | ⟨names, others, hHere, hThere, _⟩ := hTrees.names_cases root
  · rw [hHere, hThere]
    rfl
  · rw [hHere, hThere]
    exact hKinds.same

theorem alike_load (source : DocumentSource) : Alike tree other source.load := by
  cases source with
  | directory root =>
      exact (hTrees.alike_documentFilesByKind root).bind fun _ =>
        .mapM (fun _ => hTrees.alike_loadDocument _ _) _
  | kindDirectory path =>
      unfold DocumentSource.load
      dsimp only
      split
      · exact (hTrees.alike_documentFiles path).bind fun _ =>
          .mapM (fun _ => hTrees.alike_loadDocument _ _) _
      · exact alike_throw _
  | bundle path => exact hTrees.alike_loadBundle path

/-- Documents are loaded alike, and refused for the same reason, in whatever order
directories list their entries. -/
theorem alike_loadSet (sources : List DocumentSource) (exclude : List String) :
    Alike tree other (DocumentSet.load sources exclude) := by
  unfold DocumentSet.load
  split
  · exact alike_throw _
  · exact .foldlM (fun _ source => (hTrees.alike_load source).bind fun _ => alike_ofExcept _) _ _

end FileTree.Reordered
end ContentSchema
