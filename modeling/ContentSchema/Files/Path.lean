import ContentSchema.Text.Cut

/-!
# Paths

A path is a text whose parts are separated by slashes.  Paths are joined and
taken apart as texts: nothing is looked up, and parts that lead nowhere or
upwards stay where they were written.
-/

namespace ContentSchema
namespace Path

/-- Whether a path starts at the root of all files. -/
def isAbsolute (path : String) : Bool :=
  path.toList.head? = some '/'

/-- The parts of a path, empty ones included. -/
def parts (path : String) : List String :=
  Text.split '/' path

/-- A path as seen from a directory.  One slash stands between the two, and an
absolute path stands for itself. -/
def join (directory path : String) : String :=
  if isAbsolute path || directory.isEmpty then path
  else if directory.toList.getLast? = some '/' then directory ++ path
  else directory ++ "/" ++ path

/-- Whether a part of a path stays in the same directory. -/
def isIdle (part : String) : Bool :=
  part = "" || part = "."

/-- The name that a path ends with, or nothing if it ends by going upwards or
has no name. -/
def fileName? (path : String) : Option String :=
  match (parts path).reverse.dropWhile isIdle with
  | name :: _ => if name = ".." then none else some name
  | [] => none

/-- The directory that holds what a path names. -/
def directory (path : String) : String :=
  let named := (parts path).reverse.dropWhile isIdle
  match (named.drop 1).dropWhile isIdle with
  | [] => if isAbsolute path then "/" else "."
  | above => "/".intercalate above.reverse

end Path
end ContentSchema
