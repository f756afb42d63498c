import ContentSchema.Command.Arguments
import ContentSchema.Loading.BaseSchemaFile
import ContentSchema.Loading.Documents

/-!
# Running commands

What a command line prints and how it ends.  The files are reached only through
`Files`, so the whole program can be run on a tree of files.
-/

namespace ContentSchema

/-- What a run prints, and the number that it ends with. -/
structure Outcome where
  exit : Nat := 0
  stdout : String := ""
  stderr : String := ""
deriving DecidableEq, Repr

/-- The project of a command: its configuration, and the directory that its
paths are meant from. -/
structure Project where
  config : ProjectConfig
  directory : String

namespace Command

/-- The wording of an error.  An error of compilation carries its number. -/
def describe : LoadError → String
  | .compile error => "[" ++ toString error.code ++ "] " ++ error.message
  | error => error.message

section Running

variable {m : Type → Type} [Monad m] [Files m]

/-- An action that may fail with a wording. -/
abbrev Run (m : Type → Type) := ExceptT String m

/-- An action that fails with the wording of a loading error. -/
def Run.ofLoad {α : Type} (wording : LoadError → String) (action : Load m α) : Run m α :=
  ExceptT.mk do return (← action.run).mapError wording

/-- The project file to be loaded, if there is one. -/
def projectFile? (config : Option String) : Run m (Option String) := do
  match config with
  | some path => return some path
  | none =>
      if ← (ExceptT.lift (Files.isFile ProjectConfig.defaultFile) : Run m Bool) then
        return some ProjectConfig.defaultFile
      else return none

/-- The project that a command is for. -/
def loadProject (config : Option String) : Run m Project := do
  match ← projectFile? config with
  | some path =>
      let config ← Run.ofLoad
        (fun error => "failed to load " ++ path ++ ": " ++ error.message)
        (ProjectConfig.load path)
      return ⟨config, Path.directory path⟩
  | none => return ⟨.default, "."⟩

/-- The environment that a project is compiled in. -/
def environmentOf (project : Project) : Load m Environment := do
  match project.config.baseSchemaPath project.directory with
  | some path => return ⟨.standard, ← BaseSchema.load .standard path⟩
  | none => return ⟨.standard, .hostDefaults .standard⟩

/-- Load and compile a project, or the given sources in its place. -/
def compileProject (project : Project) (sources : List String) : Load m CompiledResult := do
  let set ←
    if sources.isEmpty then DocumentSet.ofProject project.config project.directory
    else
      DocumentSet.load (sources.map DocumentSource.directory) project.config.exclude
  let environment ← environmentOf project
  Load.ofExcept (set.compile environment)

/-- The compiled result of a command, and the format to write in. -/
def compiled (config : Option String) (sources : List String) (format : Option OutputFormat) :
    Run m (CompiledResult × OutputFormat) := do
  let project ← loadProject config
  let result ← Run.ofLoad describe (compileProject project sources)
  return (result, format.getD project.config.format)

/-- A line to be printed. -/
def line (text : String) : String :=
  text ++ "\n"

/-- The report on a compiled result. -/
def report (result : CompiledResult) : String :=
  let total := (result.tables.flatMap fun (_, table) => table.contentTypes).length
  let heading :=
    line ("Validated " ++ toString total ++ " content type(s) across "
      ++ toString result.tables.length ++ " table(s).")
  let tables := result.tables.map fun (name, table) =>
    line ("  " ++ name ++ ": " ++ toString table.fields.length ++ " field(s), "
      ++ toString table.contentTypes.length ++ " content type(s)")
  heading ++ String.join tables

/-- The source texts as a value. -/
def encodeSourceMap (sources : Entries (Entries String)) : Value :=
  .object (Entries.mapValues
    (fun texts => Value.object (Entries.mapValues Value.string texts)) sources)

/-- Run a command up to what it prints or the wording of its error. -/
def perform (config : Option String) : Command → Run m Outcome
  | .compile sources format output => do
      let (result, format) ← compiled config sources format
      let rendered := format.render result.encode
      match output with
      | none => return { stdout := line rendered }
      | some path =>
          match ← (ExceptT.lift (Files.write path rendered.toUTF8) : Run m _) with
          | .ok () =>
              return {
                stderr := line ("Wrote " ++ toString result.tables.length ++ " table(s) to "
                  ++ path) }
          | .error cause => throw ("failed to write " ++ path ++ ": " ++ cause.message)
  | .validate sources => do
      let (result, _) ← compiled config sources none
      return { stdout := report result }
  | .languageKeys sources format scaffold => do
      let (result, format) ← compiled config sources format
      let keys :=
        if scaffold then encodeSourceMap result.languageKeys.sourceMap
        else result.languageKeys.encode
      return { stdout := line (format.render keys) }
  | .types none =>
      return { stdout := String.join (Catalog.standard.names.map line) }
  | .types (some format) =>
      return {
        stdout := line (format.render
          (.list (Catalog.standard.types.map TypeDescriptor.encode))) }

/-- How the program is used. -/
def usage : String :=
  String.join (List.map line
    [ "Compile content block schema documents",
      "",
      "Usage: content-blocks [OPTIONS] <COMMAND>",
      "",
      "Commands:",
      "  compile        Compile all content blocks and print the merged result",
      "  validate       Compile all content blocks and report the first error",
      "  language-keys  Print the translation keys collected while compiling",
      "  types          List the registered field types",
      "  help           Print this message or the help of the given subcommand(s)",
      "",
      "Options:",
      "      --config <CONFIG>  Project configuration file",
      "  -v, --verbose          Log debug output to stderr",
      "  -h, --help             Print help",
      "  -V, --version          Print version" ])

/-- Run a command. -/
def run (invocation : Invocation) : m Outcome := do
  match ← (perform invocation.config invocation.command).run with
  | .ok outcome => return outcome
  | .error message => return { exit := 1, stderr := line ("error: " ++ message) }

/-- Run a command line. -/
def runArguments (arguments : List String) : m Outcome := do
  match Arguments.read arguments with
  | .ok invocation => run invocation
  | .error .usage => return { exit := 2, stderr := usage }
  | .error .help => return { stdout := usage }
  | .error .version => return { stdout := line "content-blocks 0.1.0" }

end Running

end Command

end ContentSchema
