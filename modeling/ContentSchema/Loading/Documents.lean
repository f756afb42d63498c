import ContentSchema.Compiler.Basic
import ContentSchema.Document.Name
import ContentSchema.Json.Reader
import ContentSchema.Loading.Project

/-!
# Loading documents

Documents are found in directories, one folder for each document below the
directory of its kind, or read from a bundle.  Kinds come in their fixed order,
folders in the order of their names and sources in the order in which they are
given, so the loaded documents do not depend on how a disk lists its files.
-/

namespace ContentSchema

/-- Where documents are loaded from. -/
inductive DocumentSource where
  /-- A directory with a directory for each kind. -/
  | directory (path : String)
  /-- A directory of one kind, which its name tells. -/
  | kindDirectory (path : String)
  /-- A JSON list of documents. -/
  | bundle (path : String)
deriving DecidableEq, Repr

/-- A document and where it was found. -/
structure LoadedDocument where
  path : String
  document : SchemaDocument

/-- The name of the document. -/
def LoadedDocument.name (loaded : LoadedDocument) : String :=
  loaded.document.name

/-- Loaded documents in the order in which they are compiled, together with the
files that they were found in and an index of their names. -/
structure DocumentSet where
  sources : List DocumentSource
  documents : List SchemaDocument := []
  /-- The file of each document, in the same order. -/
  paths : List String := []
  /-- The position of each document, by its name. -/
  index : Entries Nat := []

namespace DocumentSet

/-- The documents with the files that they were found in. -/
def loaded (set : DocumentSet) : List LoadedDocument :=
  List.zipWith LoadedDocument.mk set.paths set.documents

/-- The names of the documents. -/
def names (set : DocumentSet) : List String :=
  set.documents.map SchemaDocument.name

/-- The document of a name. -/
def get? (set : DocumentSet) (name : String) : Option SchemaDocument :=
  (set.index.lookup name).bind fun position => set.documents[position]?

/-- The file that the document of a name was found in. -/
def path? (set : DocumentSet) (name : String) : Option String :=
  (set.index.lookup name).bind fun position => set.paths[position]?

/-- Whether there is a document of a name. -/
def contains (set : DocumentSet) (name : String) : Bool :=
  Entries.contains set.index name

/-- The document of a name and where it was found. -/
def find? (set : DocumentSet) (name : String) : Option LoadedDocument := do
  return ⟨← set.path? name, ← set.get? name⟩

/-- The set with another document at the end. -/
def push (set : DocumentSet) (loaded : LoadedDocument) : DocumentSet :=
  { set with
    documents := set.documents ++ [loaded.document]
    paths := set.paths ++ [loaded.path]
    index := Entries.insert loaded.name set.documents.length set.index }

/-- Add a document.  Its name has to be a valid one, and a new one unless it is
excluded. -/
def add (exclude : List String) (set : DocumentSet) (loaded : LoadedDocument) :
    Except LoadError DocumentSet :=
  if !isValidDocumentName loaded.name then .error (.invalidName loaded.name loaded.path)
  else if exclude.contains loaded.name then .ok set
  else match set.index.lookup loaded.name with
    | some position =>
        .error (.duplicate loaded.name (set.paths[position]?.getD "") loaded.path)
    | none => .ok (set.push loaded)

end DocumentSet

/-! ## Finding documents -/

/-- The file that holds the document of a folder. -/
def documentFile : String := "config.yaml"

section Loading

variable {m : Type → Type} [Monad m] [Files m]

/-- The document files in a directory of documents of one kind. -/
def documentFiles (directory : String) : Load m (List String) := do
  let names ← Load.ofFile (Files.names directory)
  let folders ← names.filterM fun name =>
    Load.always (Files.isDirectory (Path.join directory name))
  let files := (folders.mergeSort fun a b => a ≤ b).map fun folder =>
    Path.join (Path.join directory folder) documentFile
  files.filterM fun file => Load.always (Files.isFile file)

/-- Read a document of a kind from its file.  The kind that the document itself
declares does not count. -/
def loadDocument (kind : ContentKind) (path : String) : Load m LoadedDocument := do
  let text ← Load.text path
  let document ← Load.ofExcept
    ((Yaml.readAs SchemaDocument.decode text).mapError (LoadError.yaml path))
  return ⟨path, { document with kind }⟩

/-- The document files of a kind below a directory with a directory for each kind. -/
def documentFilesOfKind (root : String) (kind : ContentKind) :
    Load m (List (ContentKind × String)) := do
  let directory := Path.join root kind.directoryName
  if ← Load.always (Files.isDirectory directory) then
    return (← documentFiles directory).map fun path => (kind, path)
  else return []

/-- The document files below a directory with a directory for each kind. -/
def documentFilesByKind (root : String) : Load m (List (ContentKind × String)) := do
  let _ ← Load.ofFile (Files.names root)
  return (← ContentKind.all.mapM (documentFilesOfKind root)).flatten

/-- The documents of a bundle, which keep the kinds that they declare. -/
def loadBundle (path : String) : Load m (List LoadedDocument) := do
  match ← Load.always (Files.content path) with
  | .ok content =>
      let documents ← Load.ofExcept
        (((textOf content).mapError FileError.message).bind
          (Json.readAs (Datum.listOf SchemaDocument.decode)) |>.mapError LoadError.json)
      return documents.map fun document => ⟨path, document⟩
  | .error .isADirectory => throw (.json FileError.isADirectory.message)
  | .error cause => throw (.file cause)

/-- The documents of a source. -/
def DocumentSource.load : DocumentSource → Load m (List LoadedDocument)
  | .directory root => do
      (← documentFilesByKind root).mapM fun (kind, path) => loadDocument kind path
  | .kindDirectory path => do
      let name := (Path.fileName? path).getD ""
      match ContentKind.ofDirectoryName? name with
      | some kind => do (← documentFiles path).mapM (loadDocument kind)
      | none => throw (.unknownDirectory name)
  | .bundle path => loadBundle path

/-- The documents of all sources, except for those that are excluded. -/
def DocumentSet.load (sources : List DocumentSource) (exclude : List String) :
    Load m DocumentSet :=
  if sources.isEmpty then throw .noSources
  else
    sources.foldlM
      (fun set source => do
        Load.ofExcept ((← source.load).foldlM (DocumentSet.add exclude) set))
      { sources }

/-- The documents of a project. -/
def DocumentSet.ofProject (config : ProjectConfig) (directory : String) :
    Load m DocumentSet :=
  DocumentSet.load ((config.sourceRoots directory).map DocumentSource.directory) config.exclude

end Loading

/-- Compile the documents in an environment. -/
def DocumentSet.compile (set : DocumentSet) (environment : Environment) :
    Except LoadError CompiledResult :=
  (ContentSchema.compile environment set.documents).mapError LoadError.compile

end ContentSchema
