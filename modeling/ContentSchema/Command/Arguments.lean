import ContentSchema.Loading.Project

/-!
# Arguments

A command line is a command with its options.  An option may be written in
several words or joined to its value by an equals sign, switches of one letter
may be joined to each other, and everything after a double dash is a source.
Two options may stand before the command as well as after it; what stands after
it has the last word.  No option may be given twice in one place.
-/

namespace ContentSchema

/-- What the program is to do. -/
inductive Command where
  /-- Write the compiled result. -/
  | compile (sources : List String) (format : Option OutputFormat) (output : Option String)
  /-- Report whether everything compiles. -/
  | validate (sources : List String)
  /-- Write the registered language keys. -/
  | languageKeys (sources : List String) (format : Option OutputFormat) (scaffold : Bool)
  /-- List the registered types. -/
  | types (format : Option OutputFormat)
deriving DecidableEq, Repr

/-- A command and where its project is. -/
structure Invocation where
  /-- The project file, if one is named. -/
  config : Option String
  /-- Whether progress is to be reported, which is left to whoever runs the
  command. -/
  verbose : Bool
  command : Command
deriving DecidableEq, Repr

namespace Arguments

/-- Why a command line says nothing to do. -/
inductive Stop where
  /-- It is not one of this program. -/
  | usage
  /-- It asks how the program is used. -/
  | help
  /-- It asks which version this is. -/
  | version
deriving DecidableEq, Repr

/-- Options that take a value. -/
inductive Setting where
  | config
  | format
  | output
deriving DecidableEq, Repr

/-- Options that take no value. -/
inductive Switch where
  | verbose
  | scaffold
  | help
  | version
deriving DecidableEq, Repr

/-- What may be written after the name of the program or of a command. -/
structure Place where
  settings : List Setting
  switches : List Switch
  /-- Whether sources may be given. -/
  takesSources : Bool

/-- What has been given at a place. -/
structure Given where
  config : Option String := none
  format : Option OutputFormat := none
  output : Option String := none
  verbose : Bool := false
  scaffold : Bool := false
  sources : List String := []

/-- The word of a setting. -/
def Setting.word : Setting → String
  | config => "config"
  | format => "format"
  | output => "output"

/-- The word of a switch. -/
def Switch.word : Switch → String
  | verbose => "verbose"
  | scaffold => "scaffold"
  | help => "help"
  | version => "version"

/-- The letter of a switch. -/
def Switch.letter? : Switch → Option Char
  | verbose => some 'v'
  | scaffold => none
  | help => some 'h'
  | version => some 'V'

/-- A path, which may not be empty. -/
def path (value : String) : Except Stop String :=
  if value.isEmpty then .error .usage else .ok value

/-- A value for something that has none yet. -/
def once {α : Type} (present : Option α) (value : Except Stop α) : Except Stop (Option α) :=
  if present.isSome then .error .usage else value.map some

/-- Give a setting its value. -/
def Given.set (given : Given) (value : String) : Setting → Except Stop Given
  | .config => return { given with config := ← once given.config (path value) }
  | .output => return { given with output := ← once given.output (path value) }
  | .format =>
      return { given with
        format := ← once given.format ((OutputFormat.parse value).mapError fun _ => .usage) }

/-- Turn a switch on. -/
def Given.turnOn (given : Given) : Switch → Except Stop Given
  | .verbose => if given.verbose then .error .usage else .ok { given with verbose := true }
  | .scaffold => if given.scaffold then .error .usage else .ok { given with scaffold := true }
  | .help => .error .help
  | .version => .error .version

/-- Add a source. -/
def Given.addSource (given : Given) (source : String) : Except Stop Given := do
  return { given with sources := given.sources ++ [← path source] }

/-- An argument by its form. -/
inductive Form where
  /-- The double dash. -/
  | separator
  /-- A word after two dashes, and a value after an equals sign. -/
  | long (word : String) (value : Option String)
  /-- Letters after a dash. -/
  | short (letters : List Char)
  | plain
deriving DecidableEq, Repr

/-- The form of an argument. -/
def formOf (argument : String) : Form :=
  match argument.toList with
  | ['-', '-'] => .separator
  | '-' :: '-' :: rest =>
      match Text.cutChars '=' rest with
      | some (word, value) => .long (String.ofList word) (some (String.ofList value))
      | none => .long (String.ofList rest) none
  | '-' :: c :: rest => .short (c :: rest)
  | _ => .plain

/-- What an option leads to: the options given, and a setting whose value is to
follow. -/
abbrev Progress := Given × Option Setting

/-- Take an option of a whole word. -/
def Place.takeLong (place : Place) (given : Given) (word : String) (value : Option String) :
    Except Stop Progress :=
  match place.settings.find? fun setting => setting.word = word with
  | some setting =>
      match value with
      | some value => do return (← given.set value setting, none)
      | none => .ok (given, some setting)
  | none =>
      match place.switches.find? fun switch => switch.word = word with
      | some switch =>
          if value.isSome then .error .usage else do return (← given.turnOn switch, none)
      | none => .error .usage

/-- Take one letter. -/
def Place.takeLetter (place : Place) (given : Given) (letter : Char) : Except Stop Given :=
  match place.switches.find? fun switch => switch.letter? = some letter with
  | some switch => given.turnOn switch
  | none => .error .usage

/-- Take the arguments after a command.  A setting whose value is to follow may
be pending. -/
def Place.takeAll (place : Place) (given : Given) (pending : Option Setting) :
    List String → Except Stop Given
  | [] => if pending.isSome then .error .usage else .ok given
  | argument :: rest =>
      match formOf argument, pending with
      | .plain, some setting => do
          place.takeAll (← given.set argument setting) none rest
      | _, some _ => .error .usage
      | .plain, none =>
          if place.takesSources then do
            place.takeAll (← given.addSource argument) none rest
          else .error .usage
      | .long word value, none => do
          let (given, pending) ← place.takeLong given word value
          place.takeAll given pending rest
      | .short letters, none => do
          place.takeAll (← letters.foldlM place.takeLetter given) none rest
      | .separator, none =>
          if place.takesSources then rest.foldlM Given.addSource given
          else if rest.isEmpty then .ok given
          else .error .usage

/-- What may be written before the command. -/
def beforeCommand : Place where
  settings := [.config]
  switches := [.verbose, .help, .version]
  takesSources := false

/-- What may be written after the command that a word names. -/
def afterCommand? (word : String) : Option Place :=
  match word with
  | "compile" => some ⟨[.config, .format, .output], [.verbose, .help], true⟩
  | "validate" => some ⟨[.config], [.verbose, .help], true⟩
  | "language-keys" => some ⟨[.config, .format], [.verbose, .scaffold, .help], true⟩
  | "types" => some ⟨[.config, .format], [.verbose, .help], false⟩
  | _ => none

/-- Take the arguments up to the command: what is given there, the word of the
command, and the arguments after it. -/
def takeToCommand (given : Given) (pending : Option Setting) :
    List String → Except Stop (Given × String × List String)
  | [] => .error .usage
  | argument :: rest =>
      match formOf argument, pending with
      | .plain, some setting => do takeToCommand (← given.set argument setting) none rest
      | .plain, none => .ok (given, argument, rest)
      | .long word value, none => do
          let (given, pending) ← beforeCommand.takeLong given word value
          takeToCommand given pending rest
      | .short letters, none => do
          takeToCommand (← letters.foldlM beforeCommand.takeLetter given) none rest
      | _, _ => .error .usage

/-- The command that a word names, with what is given for it. -/
def commandOf? (given : Given) (word : String) : Option Command :=
  match word with
  | "compile" => some (.compile given.sources given.format given.output)
  | "validate" => some (.validate given.sources)
  | "language-keys" => some (.languageKeys given.sources given.format given.scaffold)
  | "types" => some (.types given.format)
  | _ => none

/-- Why a request for help stops: it may name one command. -/
def helpOn : List String → Stop
  | [] => .help
  | [word] => if word = "help" || (afterCommand? word).isSome then .help else .usage
  | _ => .usage

/-- What a command line asks for. -/
def read (arguments : List String) : Except Stop Invocation := do
  let (before, word, rest) ← takeToCommand {} none arguments
  match afterCommand? word with
  | some place =>
      let given ← place.takeAll {} none rest
      match commandOf? given word with
      | some command =>
          return {
            config := given.config <|> before.config
            verbose := given.verbose || before.verbose
            command }
      | none => throw .usage
  | none => throw (if word = "help" then helpOn rest else .usage)

end Arguments

end ContentSchema
