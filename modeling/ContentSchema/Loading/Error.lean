import ContentSchema.Error
import ContentSchema.Files.Access

/-!
# Errors of loading

Why documents, or what belongs to them, could not be loaded and compiled.
-/

namespace ContentSchema

/-- Why loading failed. -/
inductive LoadError where
  /-- A file or directory cannot be used. -/
  | file (cause : FileError)
  /-- A file is not the YAML that it should be. -/
  | yaml (path reason : String)
  /-- A file is not the JSON that it should be. -/
  | json (reason : String)
  /-- A document has a name that no document may have. -/
  | invalidName (name path : String)
  /-- Two documents have the same name. -/
  | duplicate (name first second : String)
  /-- A directory is not one that holds documents of a kind. -/
  | unknownDirectory (name : String)
  /-- There is nothing to load. -/
  | noSources
  /-- An existing column is described by an unknown type. -/
  | unknownColumnType (table column typeName : String)
  /-- The loaded documents do not compile. -/
  | compile (error : CompileError)
deriving DecidableEq, Repr

/-- The wording of the error. -/
def LoadError.message : LoadError → String
  | .file cause => "I/O error: " ++ cause.message
  | .yaml path reason => "YAML error in " ++ path ++ ": " ++ reason
  | .json reason => "JSON error: " ++ reason
  | .invalidName name path =>
      "invalid content block name \"" ++ name ++ "\" in " ++ path
        ++ "; expected \"vendor/package\" using a-z, 0-9 and dashes"
  | .duplicate name first second =>
      "content block \"" ++ name ++ "\" is defined twice: " ++ first ++ " and " ++ second
  | .unknownDirectory name =>
      "\"" ++ name ++ "\" is not a content type directory; expected one of "
        ++ "ContentElements, PageTypes, RecordTypes, FileTypes"
  | .noSources => "no content block sources configured"
  | .unknownColumnType table column typeName =>
      "invalid base schema: column " ++ table ++ "." ++ column ++ " has unknown type \""
        ++ typeName ++ "\""
  | .compile error => error.message

/-- An action that may fail to load. -/
abbrev Load (m : Type → Type) := ExceptT LoadError m

namespace Load

variable {m : Type → Type} [Monad m]

/-- An action that cannot fail. -/
def always {α : Type} (action : m α) : Load m α :=
  ExceptT.lift action

/-- An action whose failure is that of a file. -/
def ofFile {α : Type} (action : m (Except FileError α)) : Load m α :=
  ExceptT.mk do return (← action).mapError LoadError.file

/-- A result that is known already. -/
def ofExcept {α : Type} (result : Except LoadError α) : Load m α :=
  ExceptT.mk (pure result)

/-- The text of a file. -/
def text [Files m] (path : String) : Load m String := do
  ofFile (return (← Files.content path).bind textOf)

end Load

end ContentSchema
