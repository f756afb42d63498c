import ContentSchema.Json.Writer
import ContentSchema.Loading.Error
import ContentSchema.Text.LowerCase
import ContentSchema.Yaml.Reader
import ContentSchema.Yaml.Writer

/-!
# Projects

A project file names the directories that documents are loaded from, documents
to pass over, a description of existing columns, and the format of the output.
Paths in it are meant from the directory that holds the file.
-/

namespace ContentSchema

/-- The format of the output. -/
inductive OutputFormat where
  | json
  | yaml
deriving DecidableEq, Repr

namespace OutputFormat

/-- The word for a format. -/
def word : OutputFormat → String
  | json => "json"
  | yaml => "yaml"

/-- Every format. -/
def all : List OutputFormat :=
  [json, yaml]

/-- Read a format. -/
def decode (d : Datum) : Except DecodeError OutputFormat :=
  d.oneOf word all

/-- The format that a text names in letters of either case, or why it names
none. -/
def parse (s : String) : Except String OutputFormat :=
  match Text.lowerAscii s with
  | "json" => .ok json
  | "yaml" => .ok yaml
  | "yml" => .ok yaml
  | other => .error ("unknown output format '" ++ other ++ "', expected json or yaml")

/-- The word for a format names it. -/
@[simp] theorem parse_word (format : OutputFormat) : parse format.word = .ok format := by
  cases format <;> rfl

/-- The text of a value in a format. -/
def render (format : OutputFormat) (v : Value) : String :=
  match format with
  | json => Json.pretty v
  | yaml => Yaml.write v

end OutputFormat

/-- What a project file says. -/
structure ProjectConfig where
  version : String
  sources : List String := []
  /-- The names of documents to pass over. -/
  exclude : List String := []
  /-- Where existing columns are described. -/
  baseSchema : Option String := none
  format : OutputFormat := .json
deriving DecidableEq, Repr

namespace ProjectConfig

/-- The name of the project file of a directory. -/
def defaultFile : String := "content-blocks.yaml"

/-- What holds where there is no project file. -/
def default : ProjectConfig where
  version := "1.0"
  sources := ["."]

/-- The written form of a project. -/
def encode (config : ProjectConfig) : Value :=
  .object
    ([ ("version", .string config.version),
       ("sources", .list (config.sources.map Value.string)),
       ("exclude", .list (config.exclude.map Value.string)) ]
      ++ Value.textEntry? "base_schema" config.baseSchema
      ++ [("output", .object [("format", .string config.format.word)])])

/-- Read the settings of the output. -/
def decodeOutput (d : Datum) : Except DecodeError OutputFormat := do
  (← d.slots ["format"]).withDefault "format" .json OutputFormat.decode

/-- Read a project. -/
def decode (d : Datum) : Except DecodeError ProjectConfig := do
  let slots ← d.slots ["version", "sources", "exclude", "base_schema", "output"]
  return {
    version := ← slots.required "version" Datum.text
    sources := ← slots.withDefault "sources" [] (Datum.listOf Datum.text)
    exclude := ← slots.withDefault "exclude" [] (Datum.listOf Datum.text)
    baseSchema := ← slots.optional "base_schema" Datum.text
    format := ← slots.withDefault "output" .json decodeOutput }

/-- What the content of a project file says, if it is one. -/
def ofContent (content : ByteArray) : Except String ProjectConfig := do
  Yaml.readAs decode (← (textOf content).mapError FileError.message)

/-- Load a project file.  What is there but is no file is no project either. -/
def load {m : Type → Type} [Monad m] [Files m] (path : String) :
    Load m ProjectConfig := do
  match ← Load.always (Files.content path) with
  | .ok content => Load.ofExcept ((ofContent content).mapError (LoadError.yaml path))
  | .error .isADirectory => throw (.yaml path FileError.isADirectory.message)
  | .error cause => throw (.file cause)

/-- Write a project file. -/
def save {m : Type → Type} [Monad m] [Files m] (config : ProjectConfig) (path : String) :
    Load m Unit :=
  Load.ofFile (Files.write path (Yaml.write config.encode).toUTF8)

/-- Whether the named document is to be passed over. -/
def isExcluded (config : ProjectConfig) (name : String) : Bool :=
  config.exclude.contains name

/-- The directories to load from, as seen from where the directory of the
project is. -/
def sourceRoots (config : ProjectConfig) (directory : String) : List String :=
  config.sources.map (Path.join directory)

/-- Where existing columns are described, as seen from there too. -/
def baseSchemaPath (config : ProjectConfig) (directory : String) : Option String :=
  config.baseSchema.map (Path.join directory)

end ProjectConfig

end ContentSchema
