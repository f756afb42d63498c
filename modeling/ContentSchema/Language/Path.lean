/-!
# Paths of language keys

A path is a language file and a position below it.  The position follows the
field tree: entering a node adds a segment and leaving it takes the last segment
away.  `Step` is a program of such moves; leaving a scope takes away whichever
segment is last, if there is one.
-/

namespace ContentSchema

/-- A language file and a position below it, outermost segment first. -/
structure LanguagePath where
  base : String
  segments : List String := []
deriving DecidableEq, Repr

namespace LanguagePath

/-- The number of segments. -/
def depth (path : LanguagePath) : Nat :=
  path.segments.length

/-- The position one segment further in. -/
def push (path : LanguagePath) (segment : String) : LanguagePath :=
  { path with segments := path.segments ++ [segment] }

/-- The position one segment further out. -/
def pop (path : LanguagePath) : LanguagePath :=
  { path with segments := path.segments.dropLast }

/-- The position below the file. -/
def currentKey (path : LanguagePath) : String :=
  ".".intercalate path.segments

/-- The position with its file. -/
def current (path : LanguagePath) : String :=
  if path.segments.isEmpty then path.base else path.base ++ ":" ++ path.currentKey

/-- The key of something at this position. -/
def keyFor (path : LanguagePath) (suffix : String) : String :=
  if path.segments.isEmpty then suffix else path.currentKey ++ "." ++ suffix

/-- The key of something at this position with its file. -/
def pathFor (path : LanguagePath) (suffix : String) : String :=
  path.base ++ ":" ++ path.keyFor suffix

/-- A move along a path, or a look at it. -/
inductive Step where
  | push (segment : String)
  | pop
  | key (suffix : String)
  /-- Enter a segment, move inside it, and leave. -/
  | scoped (segment : String) (body : List Step)
deriving Inhabited

/-- What a move shows. -/
inductive Shown where
  | nothing
  | popped (segment : Option String)
  | key (key path : String)
deriving DecidableEq, Repr

mutual

/-- The path after a move, and what was shown with the path reached, move by
move; the moves of a scope come before the scope itself. -/
def Step.run (path : LanguagePath) : Step → LanguagePath × List (Shown × LanguagePath)
  | .push segment => (path.push segment, [(.nothing, path.push segment)])
  | .pop => (path.pop, [(.popped path.segments.getLast?, path.pop)])
  | .key suffix => (path, [(.key (path.keyFor suffix) (path.pathFor suffix), path)])
  | .scoped segment body =>
      let (reached, shown) := runAll (path.push segment) body
      (reached.pop, shown ++ [(.nothing, reached.pop)])

/-- The path after a list of moves, and what was shown. -/
def runAll (path : LanguagePath) : List Step → LanguagePath × List (Shown × LanguagePath)
  | [] => (path, [])
  | step :: rest =>
      let (reached, shown) := Step.run path step
      let (last, more) := runAll reached rest
      (last, shown ++ more)

end

end LanguagePath
end ContentSchema
