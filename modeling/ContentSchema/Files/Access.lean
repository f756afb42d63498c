import ContentSchema.Files.Tree

/-!
# Access to files

What a program may ask of the files around it.  Programs that ask only through
`Files` can be run on a `FileTree`, which a proof can see, as well as on a disk.
-/

namespace ContentSchema

/-- Actions that may look at files and write them. -/
class Files (m : Type → Type) where
  /-- The names in a directory, in any order. -/
  names (path : String) : m (Except FileError (List String))
  /-- Whether a path leads to a directory. -/
  isDirectory (path : String) : m Bool
  /-- Whether a path leads to a file. -/
  isFile (path : String) : m Bool
  /-- The content of a file. -/
  content (path : String) : m (Except FileError ByteArray)
  /-- Write a file. -/
  write (path : String) (content : ByteArray) : m (Except FileError Unit)

/-- Actions on a tree of files. -/
abbrev OnTree := StateM FileTree

namespace OnTree

/-- Ask something of the tree. -/
def ask {α : Type} (question : FileTree → α) : OnTree α := do
  return question (← get)

/-- Whether a path leads to something that satisfies a test. -/
def leadsTo (test : FileTree → Bool) (path : String) (tree : FileTree) : Bool :=
  match tree.get path with
  | .ok found => test found
  | .error _ => false

instance : Files OnTree where
  names path := ask fun tree => tree.names path
  isDirectory path := ask (leadsTo (fun found => found matches .directory _) path)
  isFile path := ask (leadsTo (fun found => found matches .file _) path)
  content path := ask fun tree => tree.content path
  write path content := do
    match (← get).write path content with
    | .ok tree =>
        set tree
        return .ok ()
    | .error e => return .error e

end OnTree

/-- The text that a content encodes. -/
def textOf (content : ByteArray) : Except FileError String :=
  match String.fromUTF8? content with
  | some text => .ok text
  | none => .error .notText

end ContentSchema
