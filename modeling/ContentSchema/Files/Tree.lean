import ContentSchema.Entries
import ContentSchema.Files.Path

/-!
# File trees

The files below a working directory as a tree.  A path is followed part by
part: every part but the last has to be a directory, and so has the last if a
slash follows it.  A path may lead upwards out of the working directory; there
nothing but directories without visible contents is to be found.
-/

namespace ContentSchema

/-- Why a file or a directory cannot be used. -/
inductive FileError where
  | notFound
  | notADirectory
  | isADirectory
  /-- A file that was to be read as text is not encoded as one. -/
  | notText
  | other (message : String)
deriving DecidableEq, Repr

/-- The wording of the error. -/
def FileError.message : FileError → String
  | .notFound => "No such file or directory (os error 2)"
  | .notADirectory => "Not a directory (os error 20)"
  | .isADirectory => "Is a directory (os error 21)"
  | .notText => "stream did not contain valid UTF-8"
  | .other message => message

/-- A file or a directory. -/
inductive FileTree where
  | file (content : ByteArray)
  | directory (entries : List (String × FileTree))
deriving Inhabited

namespace FileTree

/-- What is found by following names downwards. -/
def find? : FileTree → List String → Option FileTree
  | tree, [] => some tree
  | .file _, _ :: _ => none
  | .directory entries, name :: rest =>
      (entries.lookup name).bind fun tree => find? tree rest

/-- The tree with something put in place, together with the directories that
lead to it. -/
def insert : FileTree → List String → FileTree → FileTree
  | _, [], added => added
  | .directory entries, name :: rest, added =>
      .directory (Entries.update name
        (fun present => insert (present.getD (.directory [])) rest added) entries)
  | .file _, name :: rest, added =>
      .directory [(name, insert (.directory []) rest added)]

/-- What was put in place is found there. -/
@[simp] theorem find?_insert (names : List String) (added tree : FileTree) :
    (tree.insert names added).find? names = some added := by
  induction names generalizing tree with
  | nil => cases tree <;> simp [insert, find?]
  | cons name rest ih =>
      cases tree with
      | file content => simp [insert, find?, ih]
      | directory entries => simp [insert, find?, Entries.lookup_update_self, ih]

/-- Where a path has led. -/
inductive Place where
  /-- Below the working directory, under these names. -/
  | inside (names : List String)
  /-- In a directory that is not below the working directory. -/
  | outside
deriving DecidableEq, Repr

/-- What is at a place. -/
def at? (tree : FileTree) : Place → Option FileTree
  | .inside names => tree.find? names
  | .outside => some (.directory [])

/-- Follow one part of a path. -/
def step (tree : FileTree) (place : Place) (part : String) : Except FileError Place :=
  match tree.at? place with
  | none => .error .notFound
  | some (.file _) => .error .notADirectory
  | some (.directory entries) =>
      if Path.isIdle part then .ok place
      else match place with
        | .outside => if part = ".." then .ok .outside else .error .notFound
        | .inside names =>
            if part = ".." then
              .ok (if names.isEmpty then .outside else .inside names.dropLast)
            else if (entries.lookup part).isSome then .ok (.inside (names ++ [part]))
            else .error .notFound

/-- Where a path starts. -/
def start (path : String) : Place :=
  if Path.isAbsolute path then .outside else .inside []

/-- Where a path leads from the working directory. -/
def follow (tree : FileTree) (path : String) : Except FileError Place :=
  if path.isEmpty then .error .notFound
  else (Path.parts path).foldlM tree.step (start path)

/-- What a path leads to. -/
def get (tree : FileTree) (path : String) : Except FileError FileTree := do
  match tree.at? (← tree.follow path) with
  | some found => return found
  | none => throw .notFound

/-- The names in a directory. -/
def names (tree : FileTree) (path : String) : Except FileError (List String) := do
  match ← tree.get path with
  | .directory entries => return Entries.keys entries
  | .file _ => throw .notADirectory

/-- The content of a file. -/
def content (tree : FileTree) (path : String) : Except FileError ByteArray := do
  match ← tree.get path with
  | .file content => return content
  | .directory _ => throw .isADirectory

/-- The tree with a file written, over the one that is there if there is one.
The last part of the path has to name the file.  What is written out of the
working directory is not seen again. -/
def write (tree : FileTree) (path : String) (content : ByteArray) :
    Except FileError FileTree :=
  let parts := (Path.parts path).reverse
  match parts.dropWhile (· = "") with
  | [] => .error (if path.isEmpty then .notFound else .isADirectory)
  | name :: above => do
      let place ← above.reverse.foldlM tree.step (start path)
      match tree.at? place with
      | none => throw .notFound
      | some (.file _) => throw .notADirectory
      | some (.directory entries) =>
          if parts.head? = some "" || Path.isIdle name || name = ".." then throw .isADirectory
          else match place, entries.lookup name with
            | .outside, _ => return tree
            | .inside _, some (.directory _) => throw .isADirectory
            | .inside names, _ => return tree.insert (names ++ [name]) (.file content)

end FileTree
end ContentSchema
