import ContentSchema.Compiler.Tree
import ContentSchema.Definition.Codec

/-!
# The compiler

Documents are compiled in order, each in a pass over its own fields preceded by
the nodes that its kind calls for: a record type gets the discriminator column
that it names unless the column is known, and a page type gets a palette for its
title.  The contributions to each table are merged once all documents are
compiled.

A compiler keeps what a run emits as it goes and starts every run from nothing,
so it may be used again, also after a run that failed.
-/

namespace ContentSchema

/-! ## Added nodes -/

namespace PassContext

/-- The identifiers of nodes and of the nodes directly inside them. -/
def shallowIdentifiers (nodes : List FieldNode) : List String :=
  nodes.flatMap fun node => (node :: node.fields).filterMap fun node => node.identifier

/-- The field that holds the discriminator value of a record type. -/
def discriminatorField (context : PassContext) (typeField typeName : String) : FieldNode :=
  { FieldNode.ofType typeField "Select" with
    prefixField := some false
    items := [{ label := some context.displayTitle, value := some (.string typeName) }]
    config := [("default", .string typeName)] }

/-- The palette that every page type starts with. -/
def pageTitlePalette : FieldNode :=
  let existing (identifier type : String) : FieldNode :=
    { FieldNode.existing identifier with type := some type }
  { FieldNode.ofType "page_title" "Palette" with
    label := some "Title"
    prefixField := some false
    fields :=
      [ existing "title" "Text", .linebreak, existing "slug" "Slug", .linebreak,
        existing "nav_title" "Text" ] }

/-- Whether the discriminator column of the pass is known: it is described, or
it is the one declared first for the table. -/
def knowsTypeField (context : PassContext) (typeFields : Entries String) (typeField : String) :
    Bool :=
  context.environment.baseSchema.has context.table typeField
    || typeFields.lookup context.table = some typeField

/-- The nodes added in front of the authored ones. -/
def addedNodes (context : PassContext) (typeFields : Entries String) : List FieldNode :=
  match context.kind, context.typeField, context.typeName with
  | .recordType, some typeField, some typeName =>
      if (shallowIdentifiers context.document.fields).contains typeField
          || context.knowsTypeField typeFields typeField then []
      else [context.discriminatorField typeField typeName]
  | .pageType, _, _ => [pageTitlePalette]
  | _, _, _ => []

end PassContext

/-! ## Documents -/

/-- The declared discriminator column of a table is the one declared first. -/
def noteTypeField (typeFields : Entries String) (table typeField : String) : Entries String :=
  Entries.insertNew table typeField typeFields

namespace SchemaDocument

/-- Compile one document, given the discriminator columns declared before it. -/
def compile (environment : Environment) (typeFields : Entries String)
    (document : SchemaDocument) : Walk PassContext := do
  document.validate
  let context ← PassContext.ofDocument environment document
  let path : LanguagePath := ⟨document.languageFileReference, []⟩
  let nodes := context.addedNodes typeFields ++ document.fields
  context.compilePass path nodes fun context path =>
    Prod.snd <$> context.compileNodes path {} nodes
  return context

/-- Compile documents in order. -/
def compileAll (environment : Environment) (typeFields : Entries String) :
    List SchemaDocument → Walk Unit
  | [] => pure ()
  | document :: rest => do
      let context ← document.compile environment typeFields
      match context.typeField with
      | some typeField => do
          Walk.emit { typeFields := [(context.table, typeField)] }
          compileAll environment (noteTypeField typeFields context.table typeField) rest
      | none => compileAll environment typeFields rest

end SchemaDocument

/-! ## Results -/

/-- What a successful run yields. -/
structure CompiledResult where
  languageKeys : LanguageKeys
  /-- The collection fields that refer to each child table. -/
  parentReferences : Entries (List CompiledField)
  tables : Entries TableDefinition

namespace CompiledResult

/-- The merged definition of a table. -/
def table? (result : CompiledResult) (table : String) : Option TableDefinition :=
  result.tables.lookup table

/-- The content type with the given identifier. -/
def contentType? (result : CompiledResult) (identifier : String) : Option ContentType :=
  (Entries.values result.tables).findSome? fun table => table.contentType? identifier

/-- The written form of a result. -/
def encode (result : CompiledResult) : Value :=
  .object
    [ ("language_keys", result.languageKeys.encode),
      ("parent_references",
        .object (Entries.mapValues (fun fields => .list (fields.map CompiledField.encode))
          result.parentReferences)),
      ("tables", .object (Entries.mapValues TableDefinition.encode result.tables)) ]

end CompiledResult

/-- The contributions to every table, in the order in which the tables were
opened. -/
def Emission.contributions (emission : Emission) : Entries Contributions :=
  emission.passes.foldl
    (fun tables pass =>
      Entries.update pass.context.table
        (fun present => (present.getD {}).contribute pass.table pass.contentType) tables)
    (emission.opened.foldl (fun tables table => Entries.insertNew table {} tables) [])

/-- What a run keeps as it goes. -/
structure Scratch where
  languageKeys : LanguageKeys := []
  parentReferences : Entries (List CompiledField) := []
  /-- The discriminator column first declared for each table. -/
  typeFields : Entries String := []

/-- Keep what a walk emits. -/
def Scratch.keep (scratch : Scratch) (emission : Emission) : Scratch where
  languageKeys :=
    emission.keys.foldl (fun keys entry => keys.add entry.1 entry.2) scratch.languageKeys
  parentReferences :=
    emission.references.foldl (fun references entry => Entries.append entry.1 entry.2 references)
      scratch.parentReferences
  typeFields :=
    emission.typeFields.foldl (fun fields entry => noteTypeField fields entry.1 entry.2)
      scratch.typeFields

/-- A compiler that can be used for one run after another. -/
structure Compiler where
  environment : Environment
  scratch : Scratch := {}

namespace Compiler

/-- A compiler with a catalog and the existing columns of the host tables. -/
def ofCatalog (catalog : Catalog) : Compiler where
  environment := ⟨catalog, .hostDefaults catalog⟩

/-- The compiler without anything kept. -/
def reset (compiler : Compiler) : Compiler :=
  { compiler with scratch := {} }

/-- Compile documents, from nothing.  On success nothing is kept; after an error
what was emitted before it is. -/
def compile (compiler : Compiler) (documents : List SchemaDocument) :
    Compiler × Except CompileError CompiledResult :=
  let start := compiler.reset
  let walk :=
    SchemaDocument.compileAll start.environment start.scratch.typeFields documents
  let scratch := start.scratch.keep walk.emission
  match walk.result with
  | .error e => ({ start with scratch }, .error e)
  | .ok () =>
      (start.reset,
        .ok {
          languageKeys := scratch.languageKeys
          parentReferences := scratch.parentReferences
          tables := mergeTables walk.emission.contributions })

/-- The answers of one compiler to a sequence of runs. -/
def session (compiler : Compiler) :
    List (List SchemaDocument) → List (Except CompileError CompiledResult)
  | [] => []
  | documents :: rest =>
      let (compiler, answer) := compiler.compile documents
      answer :: session compiler rest

end Compiler

/-- Compile documents in an environment. -/
def compile (environment : Environment) (documents : List SchemaDocument) :
    Except CompileError CompiledResult :=
  (Compiler.compile { environment } documents).2

end ContentSchema
