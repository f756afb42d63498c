import ContentSchema.Loading.Documents
import ContentSchema.Proofs.Loading.Reading
import Mathlib.Data.String.Basic

/-!
# Sources of documents

Which documents a source has, in which order, told by what is found on a tree of
files and not by the steps of the search.

* `FileTree.ListsKind` says what a directory of one kind has: the documents of its
  folders, in the order of the names of the folders.
* `DocumentSource.Lists` says what a source has.
* `DocumentSource.on_load_eq_ok_iff` says that a source is loaded exactly if all of
  it can be read, and then as it is listed.

A folder is NOT counted if it has no document file, nor is what is not a folder.
-/

namespace ContentSchema

/-! ## What is there -/

namespace FileTree

/-- Whether a path leads to a directory. -/
def hasDirectory (tree : FileTree) (path : String) : Bool :=
  OnTree.leadsTo (fun found => found matches .directory _) path tree

/-- Whether a path leads to a file. -/
def hasFile (tree : FileTree) (path : String) : Bool :=
  OnTree.leadsTo (fun found => found matches .file _) path tree

/-- The document file of a folder in a directory. -/
def documentPath (directory folder : String) : String :=
  Path.join (Path.join directory folder) documentFile

/-- Whether a name in a directory is that of a folder with a document file. -/
def hasDocument (tree : FileTree) (directory name : String) : Bool :=
  tree.hasDirectory (Path.join directory name) && tree.hasFile (documentPath directory name)

/-- The text of a file. -/
def HasText (tree : FileTree) (path text : String) : Prop :=
  ∃ content, tree.content path = .ok content ∧ textOf content = .ok text

/-- What is read from a document file in a directory of a kind. -/
def Reads (tree : FileTree) (kind : ContentKind) (path : String) (loaded : LoadedDocument) :
    Prop :=
  ∃ text document, tree.HasText path text ∧ Yaml.readAs SchemaDocument.decode text = .ok document ∧
    loaded = ⟨path, { document with kind }⟩

/-- The folders with documents in a directory, in the order of their names. -/
def ListsFolders (tree : FileTree) (directory : String) (folders : List String) : Prop :=
  ∃ names, tree.names directory = .ok names ∧ folders.Pairwise (· ≤ ·) ∧
    folders.Perm (names.filter (tree.hasDocument directory))

/-- The documents in a directory of a kind. -/
def ListsKind (tree : FileTree) (kind : ContentKind) (directory : String)
    (list : List LoadedDocument) : Prop :=
  ∃ folders, tree.ListsFolders directory folders ∧
    List.Forall₂ (fun folder loaded => tree.Reads kind (documentPath directory folder) loaded)
      folders list

/-- The documents of a kind below a directory with a directory for each kind; there
are none if there is no such directory. -/
def ListsBelow (tree : FileTree) (root : String) (kind : ContentKind)
    (list : List LoadedDocument) : Prop :=
  if tree.hasDirectory (Path.join root kind.directoryName) then
    tree.ListsKind kind (Path.join root kind.directoryName) list
  else list = []

end FileTree

/-- The documents of a source. -/
def DocumentSource.Lists (tree : FileTree) : DocumentSource → List LoadedDocument → Prop
  | .directory root, list =>
      (∃ names, tree.names root = .ok names) ∧
        ∃ parts, List.Forall₂ (tree.ListsBelow root) ContentKind.all parts ∧
          list = parts.flatten
  | .kindDirectory path, list =>
      ∃ kind, Path.fileName? path = some kind.directoryName ∧ tree.ListsKind kind path list
  | .bundle path, list =>
      ∃ text documents, tree.HasText path text ∧
        Json.readAs (Datum.listOf SchemaDocument.decode) text = .ok documents ∧
          list = documents.map fun document => ⟨path, document⟩

/-! ## Folders -/

section Loading

open Load

variable {tree : FileTree}

theorem readOnly_documentFiles (directory : String) :
    ReadOnly (documentFiles directory : Load OnTree (List String)) := by
  refine (readOnly_names directory).bind fun _ => ?_
  refine (readOnly_filterM fun _ => readOnly_isDirectory _).bind fun _ => ?_
  exact readOnly_filterM fun _ => readOnly_isFile _

/-- The document files of a directory, as they are found. -/
theorem on_documentFiles (directory : String) :
    on tree (documentFiles directory) =
      ((tree.names directory).mapError LoadError.file).map fun names =>
        ((((names.filter fun name => tree.hasDirectory (Path.join directory name)).mergeSort
          fun a b => a ≤ b).map (FileTree.documentPath directory)).filter tree.hasFile) := by
  have hFolders : Asks (fun name => (always (Files.isDirectory (Path.join directory name)) :
      Load OnTree Bool)) tree fun name => tree.hasDirectory (Path.join directory name) :=
    ⟨fun _ => readOnly_isDirectory _, fun _ => rfl⟩
  have hFiles : Asks (fun file => (always (Files.isFile file) : Load OnTree Bool)) tree
      tree.hasFile := ⟨fun _ => readOnly_isFile _, fun _ => rfl⟩
  unfold documentFiles
  rw [on_bind (readOnly_names directory), on_names]
  cases tree.names directory with
  | error e => rfl
  | ok names =>
      show on tree (names.filterM _ >>= _) = _
      rw [on_bind (readOnly_filterM hFolders.readOnly), on_filterM hFolders]
      exact on_filterM hFiles

theorem pairwise_mergeSort_le (names : List String) :
    (names.mergeSort fun a b => a ≤ b).Pairwise (· ≤ ·) := by
  have hSorted : (names.mergeSort fun a b => a ≤ b).Pairwise fun a b => decide (a ≤ b) = true := by
    apply List.pairwise_mergeSort
    · intro a b c hFirst hSecond
      exact decide_eq_true (le_trans (of_decide_eq_true hFirst) (of_decide_eq_true hSecond))
    · intro a b
      simpa using le_total a b
  exact hSorted.imp of_decide_eq_true

/-- Names in order are the same names in the same order. -/
theorem eq_of_perm_of_pairwise_le {names others : List String} (hSame : names.Perm others)
    (hNames : names.Pairwise (· ≤ ·)) (hOthers : others.Pairwise (· ≤ ·)) : names = others :=
  hSame.eq_of_pairwise (fun _ _ _ _ => le_antisymm) hNames hOthers

/-- Folders are put in order before those without a document file are left out. -/
theorem FileTree.listsFolders_iff {directory : String} {folders : List String} :
    tree.ListsFolders directory folders ↔
      ∃ names, tree.names directory = .ok names ∧
        folders = ((names.filter fun name => tree.hasDirectory (Path.join directory name)).mergeSort
          fun a b => a ≤ b).filter fun name => tree.hasFile (documentPath directory name) := by
  refine exists_congr fun names => and_congr_right fun _ => ?_
  let found := names.filter fun name => tree.hasDirectory (Path.join directory name)
  let sorted := found.mergeSort fun a b => a ≤ b
  have hFiltered := (pairwise_mergeSort_le found).filter fun name =>
    tree.hasFile (documentPath directory name)
  have hPerm : (sorted.filter fun name => tree.hasFile (documentPath directory name)).Perm
      (names.filter (tree.hasDocument directory)) := by
    refine ((List.mergeSort_perm found _).filter _).trans ?_
    rw [List.filter_filter]
    refine .of_eq (List.filter_congr fun name _ => ?_)
    exact Bool.and_comm _ _
  constructor
  · rintro ⟨hFolders, hSame⟩
    exact eq_of_perm_of_pairwise_le (hSame.trans hPerm.symm) hFolders hFiltered
  · rintro rfl
    exact ⟨hFiltered, hPerm⟩

/-- The document files that are found are those of the folders with documents. -/
theorem on_documentFiles_eq_ok_iff {directory : String} {files : List String} :
    on tree (documentFiles directory) = .ok files ↔
      ∃ folders, tree.ListsFolders directory folders ∧
        files = folders.map (FileTree.documentPath directory) := by
  rw [on_documentFiles]
  simp only [FileTree.listsFolders_iff, List.filter_map]
  cases tree.names directory with
  | error e => simp [Except.mapError, Except.map]
  | ok names =>
      constructor
      · intro hFiles
        exact ⟨_, ⟨names, rfl, rfl⟩, (Except.ok.inj hFiles).symm⟩
      · rintro ⟨_, ⟨_, hNames, rfl⟩, rfl⟩
        obtain rfl := Except.ok.inj hNames
        rfl

/-! ## Documents -/

theorem readOnly_loadDocument (kind : ContentKind) (path : String) :
    ReadOnly (loadDocument kind path : Load OnTree LoadedDocument) :=
  (readOnly_text path).bind fun _ => (readOnly_ofExcept _).bind fun _ => readOnly_pure _

theorem bind_textOf_eq_ok_iff {path text : String} :
    (tree.content path).bind textOf = .ok text ↔ tree.HasText path text :=
  bind_eq_ok_iff

theorem on_loadDocument_eq_ok_iff {kind : ContentKind} {path : String} {loaded : LoadedDocument} :
    on tree (loadDocument kind path) = .ok loaded ↔ tree.Reads kind path loaded := by
  unfold loadDocument FileTree.Reads
  rw [on_bind (readOnly_text path), on_text]
  simp only [bind_eq_ok_iff, on_bind (readOnly_ofExcept _), on_ofExcept, on_pure,
    mapError_eq_ok_iff, bind_textOf_eq_ok_iff, Except.ok.injEq]
  constructor
  · rintro ⟨text, hText, document, hDocument, rfl⟩
    exact ⟨text, document, hText, hDocument, rfl⟩
  · rintro ⟨text, document, hText, hDocument, rfl⟩
    exact ⟨text, hText, document, hDocument, rfl⟩

theorem readOnly_loadBundle (path : String) :
    ReadOnly (loadBundle path : Load OnTree (List LoadedDocument)) := by
  refine (readOnly_content path).bind fun found => ?_
  split
  · exact (readOnly_ofExcept _).bind fun _ => readOnly_pure _
  · exact readOnly_throw _
  · exact readOnly_throw _

theorem on_loadBundle_eq_ok_iff {path : String} {list : List LoadedDocument} :
    on tree (loadBundle path) = .ok list ↔ (DocumentSource.bundle path).Lists tree list := by
  show _ ↔ ∃ text documents, tree.HasText path text ∧
    Json.readAs (Datum.listOf SchemaDocument.decode) text = .ok documents ∧
      list = documents.map fun document => ⟨path, document⟩
  unfold loadBundle FileTree.HasText
  rw [on_bind (readOnly_content path), on_content]
  cases hContent : tree.content path with
  | error cause => cases cause <;> simp [bind, Except.bind]
  | ok content =>
      show on tree (Load.ofExcept _ >>= _) = _ ↔ _
      have hRead (documents : List SchemaDocument) :
          (((textOf content).mapError FileError.message).bind
            (Json.readAs (Datum.listOf SchemaDocument.decode))) = .ok documents ↔
          ∃ text, textOf content = .ok text ∧
            Json.readAs (Datum.listOf SchemaDocument.decode) text = .ok documents := by
        refine bind_eq_ok_iff.trans ?_
        simp only [mapError_eq_ok_iff]
      simp only [on_bind (readOnly_ofExcept _), on_ofExcept, on_pure, bind_eq_ok_iff,
        mapError_eq_ok_iff, hRead, Except.ok.injEq]
      constructor
      · rintro ⟨documents, ⟨text, hText, hDocuments⟩, rfl⟩
        exact ⟨text, documents, ⟨_, rfl, hText⟩, hDocuments, rfl⟩
      · rintro ⟨text, documents, ⟨_, rfl, hText⟩, hDocuments, rfl⟩
        exact ⟨documents, ⟨text, hText, hDocuments⟩, rfl⟩

/-! ## Kinds -/

theorem readOnly_documentFilesOfKind (root : String) (kind : ContentKind) :
    ReadOnly (documentFilesOfKind root kind : Load OnTree (List (ContentKind × String))) := by
  refine (readOnly_isDirectory _).bind fun isThere => ?_
  split
  · exact (readOnly_documentFiles _).bind fun _ => readOnly_pure _
  · exact readOnly_pure _

/-- The documents of one kind are those of its folders. -/
theorem exists_documentFilesOfKind_iff {root : String} {kind : ContentKind}
    {list : List LoadedDocument} :
    (∃ files, on tree (documentFilesOfKind root kind) = .ok files ∧
        files.mapM (fun file => on tree (loadDocument file.1 file.2)) = .ok list) ↔
      tree.ListsBelow root kind list := by
  unfold documentFilesOfKind FileTree.ListsBelow
  simp only [on_bind (readOnly_isDirectory _), on_isDirectory]
  show (∃ files, on tree (if tree.hasDirectory (Path.join root kind.directoryName) = true then _
    else _) = .ok files ∧ _) ↔ _
  split
  case isTrue hThere =>
    simp only [on_bind (readOnly_documentFiles _), bind_eq_ok_iff, on_pure,
      on_documentFiles_eq_ok_iff, mapM_eq_ok_iff_forall₂, on_loadDocument_eq_ok_iff,
      Except.ok.injEq]
    constructor
    · rintro ⟨_, ⟨_, ⟨folders, hFolders, rfl⟩, rfl⟩, hList⟩
      rw [List.map_map, List.forall₂_map_left_iff] at hList
      exact ⟨folders, hFolders, hList⟩
    · rintro ⟨folders, hFolders, hList⟩
      refine ⟨_, ⟨_, ⟨folders, hFolders, rfl⟩, rfl⟩, ?_⟩
      rw [List.map_map, List.forall₂_map_left_iff]
      exact hList
  case isFalse hThere =>
    simp only [on_pure, Except.ok.injEq, exists_eq_left', List.mapM_nil]
    exact ⟨fun hNil => (Except.ok.inj hNil).symm, fun hNil => by rw [hNil]; rfl⟩

/-- The documents of kinds are those of each kind, one after another. -/
theorem exists_documentFiles_iff {root : String} {kinds : List ContentKind}
    {list : List LoadedDocument} :
    (∃ groups, on tree (kinds.mapM (documentFilesOfKind root)) = .ok groups ∧
        groups.flatten.mapM (fun file => on tree (loadDocument file.1 file.2)) = .ok list) ↔
      ∃ parts, List.Forall₂ (tree.ListsBelow root) kinds parts ∧ list = parts.flatten := by
  rw [on_mapM (readOnly_documentFilesOfKind root)]
  induction kinds generalizing list with
  | nil =>
      simp [pure, Except.pure, eq_comm]
  | cons kind rest ih =>
      simp only [List.mapM_cons, bind_eq_ok_iff, List.forall₂_cons_left_iff,
        ← exists_documentFilesOfKind_iff]
      constructor
      · rintro ⟨_, ⟨files, hFiles, groups, hGroups, hMade⟩, hList⟩
        obtain rfl := Except.ok.inj hMade
        rw [List.flatten_cons, List.mapM_append] at hList
        simp only [bind_eq_ok_iff] at hList
        obtain ⟨part, hPart, later, hLater, hSum⟩ := hList
        obtain rfl := Except.ok.inj hSum
        obtain ⟨parts, hParts, rfl⟩ := ih.mp ⟨groups, hGroups, hLater⟩
        exact ⟨part :: parts, ⟨part, parts, ⟨files, hFiles, hPart⟩, hParts, rfl⟩, rfl⟩
      · rintro ⟨_, ⟨part, parts, ⟨files, hFiles, hPart⟩, hParts, rfl⟩, rfl⟩
        obtain ⟨groups, hGroups, hLater⟩ := ih.mpr ⟨parts, hParts, rfl⟩
        refine ⟨files :: groups, ⟨files, hFiles, groups, hGroups, rfl⟩, ?_⟩
        rw [List.flatten_cons, List.mapM_append]
        simp only [bind_eq_ok_iff]
        exact ⟨part, hPart, _, hLater, rfl⟩

/-! ## Sources -/

theorem readOnly_documentFilesByKind (root : String) :
    ReadOnly (documentFilesByKind root : Load OnTree (List (ContentKind × String))) := by
  refine (readOnly_names root).bind fun _ => ?_
  exact (readOnly_mapM (readOnly_documentFilesOfKind root)).bind fun _ => readOnly_pure _

namespace DocumentSource

theorem readOnly_load (source : DocumentSource) :
    ReadOnly (source.load : Load OnTree (List LoadedDocument)) := by
  cases source with
  | directory root =>
      exact (readOnly_documentFilesByKind root).bind fun _ =>
        readOnly_mapM fun _ => readOnly_loadDocument _ _
  | kindDirectory path =>
      unfold load
      dsimp only
      split
      · exact (readOnly_documentFiles path).bind fun _ =>
          readOnly_mapM fun _ => readOnly_loadDocument _ _
      · exact readOnly_throw _
  | bundle path => exact readOnly_loadBundle path

theorem on_load_directory_eq_ok_iff {root : String} {list : List LoadedDocument} :
    on tree (DocumentSource.load (.directory root)) = .ok list ↔
      (DocumentSource.directory root).Lists tree list := by
  show on tree (documentFilesByKind root >>= fun files =>
      files.mapM fun file => loadDocument file.1 file.2) = .ok list ↔ _ ∧ _
  rw [← exists_documentFiles_iff, on_bind (readOnly_documentFilesByKind root)]
  unfold documentFilesByKind
  simp only [on_bind (readOnly_names root),
    on_bind (readOnly_mapM (readOnly_documentFilesOfKind root)),
    on_mapM fun file : ContentKind × String => readOnly_loadDocument file.1 file.2,
    bind_eq_ok_iff, on_names, mapError_eq_ok_iff, on_pure, Except.ok.injEq]
  constructor
  · rintro ⟨_, ⟨names, hNames, groups, hGroups, rfl⟩, hList⟩
    exact ⟨⟨names, hNames⟩, groups, hGroups, hList⟩
  · rintro ⟨⟨names, hNames⟩, groups, hGroups, hList⟩
    exact ⟨_, ⟨names, hNames, groups, hGroups, rfl⟩, hList⟩

/-- A kind is told by the name that its directory ends with. -/
theorem ofDirectoryName?_fileName?_iff {path : String} {kind : ContentKind} :
    ContentKind.ofDirectoryName? ((Path.fileName? path).getD "") = some kind ↔
      Path.fileName? path = some kind.directoryName := by
  constructor
  · intro hKind
    unfold ContentKind.ofDirectoryName? at hKind
    have hFound := List.find?_some hKind
    have hName := of_decide_eq_true hFound
    cases hPath : Path.fileName? path with
    | none =>
        -- No directory of a kind is without a name.
        rw [hPath] at hName
        cases kind <;> contradiction
    | some name =>
        rw [hName, hPath]
        rfl
  · intro hPath
    rw [hPath]
    exact ContentKind.ofDirectoryName?_directoryName kind

theorem on_load_kindDirectory_eq_ok_iff {path : String} {list : List LoadedDocument} :
    on tree (DocumentSource.load (.kindDirectory path)) = .ok list ↔
      (DocumentSource.kindDirectory path).Lists tree list := by
  show _ ↔ ∃ kind, Path.fileName? path = some kind.directoryName ∧ tree.ListsKind kind path list
  simp only [← ofDirectoryName?_fileName?_iff]
  unfold load FileTree.ListsKind
  dsimp only
  cases ContentKind.ofDirectoryName? ((Path.fileName? path).getD "") with
  | none => simp
  | some kind =>
      simp only [on_bind (readOnly_documentFiles path), on_mapM (readOnly_loadDocument kind),
        bind_eq_ok_iff, on_documentFiles_eq_ok_iff, mapM_eq_ok_iff_forall₂,
        on_loadDocument_eq_ok_iff, Option.some.injEq, exists_eq_left']
      constructor
      · rintro ⟨_, ⟨folders, hFolders, rfl⟩, hList⟩
        rw [List.forall₂_map_left_iff] at hList
        exact ⟨folders, hFolders, hList⟩
      · rintro ⟨folders, hFolders, hList⟩
        refine ⟨_, ⟨folders, hFolders, rfl⟩, ?_⟩
        rw [List.forall₂_map_left_iff]
        exact hList

/-- A source is loaded exactly if it has documents to list, and then with these. -/
theorem on_load_eq_ok_iff {source : DocumentSource} {list : List LoadedDocument} :
    on tree source.load = .ok list ↔ source.Lists tree list := by
  cases source with
  | directory root => exact on_load_directory_eq_ok_iff
  | kindDirectory path => exact on_load_kindDirectory_eq_ok_iff
  | bundle path => exact on_loadBundle_eq_ok_iff

end DocumentSource
end Loading
end ContentSchema
