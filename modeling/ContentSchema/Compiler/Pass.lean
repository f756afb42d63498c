import ContentSchema.BaseSchema
import ContentSchema.Definition.Merge
import ContentSchema.Document.Validation
import ContentSchema.Language.Path

/-!
# Passes

A pass compiles one list of field nodes into one table: the root table of a
document, or the child table of a collection.  `PassContext` is what a pass
reads, `PassItem` what becomes of one node, and `Pass` the whole of what a
finished pass contributes.

Uniqueness of identifiers is a matter of a single pass: every pass starts with
no identifier claimed.
-/

namespace ContentSchema

/-- What the compiler knows before any document. -/
structure Environment where
  catalog : Catalog
  baseSchema : BaseSchema

/-- What a pass reads. -/
structure PassContext where
  environment : Environment
  document : SchemaDocument
  /-- The table that the pass writes. -/
  table : String
  /-- The table that the document targets. -/
  rootTable : String
  kind : ContentKind
  typeField : Option String
  typeName : Option String
  policy : PrefixPolicy
  settings : TableSettings
  title : Option String
  description : Option String

namespace PassContext

/-- The pass over the fields of a document. -/
def ofDocument (environment : Environment) (document : SchemaDocument) :
    Except CompileError PassContext := do
  match document.tableName.filter fun table => !table.isEmpty with
  | none => throw (document.fault .missingTable)
  | some table =>
      return {
        environment, document, table
        rootTable := table
        kind := document.kind
        typeField := document.typeFieldName
        typeName := some (← document.resolvedTypeName)
        policy := .ofDocument document
        settings := document.settings
        title := document.title
        description := document.description }

/-- The error of a fault in this pass. -/
def fault (context : PassContext) (fault : Fault) : CompileError :=
  context.document.fault fault

/-- The pass over the nested fields of a collection. -/
def ofCollection (context : PassContext) (node : FieldNode) (childTable : String) :
    Except CompileError PassContext :=
  match node.tableSettings with
  | .error cause => .error (context.fault (.invalidTableSettings node.identifierText cause))
  | .ok settings =>
      .ok { context with
        table := childTable
        kind := .recordType
        typeField := none
        typeName := none
        settings
        title := node.label <|> node.identifier
        description := node.description }

/-- Whether the pass writes the table that the document targets. -/
def isRootTable (context : PassContext) : Bool :=
  context.table = context.rootTable

/-- The title of what the pass describes, as a document shows it. -/
def displayTitle (context : PassContext) : String :=
  context.title.getD context.document.displayName

/-- The identifier of a field in the table that the pass writes.  The
discriminator column keeps its name. -/
def fieldIdentifier (context : PassContext) (node : FieldAttributes) (raw : String) :
    Except CompileError String :=
  if context.isRootTable && context.typeField = some raw then .ok raw
  else assignFieldIdentifier context.document.name context.policy node raw context.isRootTable

/-- The identifier of a palette in the table that the pass writes. -/
def paletteIdentifier (context : PassContext) (node : FieldAttributes) (raw : String) :
    Except CompileError String :=
  assignFieldIdentifier context.document.name context.policy node raw context.isRootTable

/-- The content type of the pass before its fields are visited. -/
def contentType (context : PassContext) : Except CompileError ContentType := do
  let (vendor, package) ← splitQualifiedName context.document.name
  let root := context.isRootTable
  return {
    identifier :=
      if root then context.document.name else context.document.name ++ "/" ++ context.table
    table := context.table
    kind := context.kind
    typeName := context.typeName
    vendor, package
    icon :=
      if root then
        some ⟨context.kind.iconToken ++ "-" ++ vendor ++ "-" ++ package, context.document.icon⟩
      else none
    priority := if root then context.document.priority else 0
    group :=
      if root && context.kind = .contentElement then
        some (context.document.group.getD "default")
      else none }

end PassContext

/-! ## Claimed identifiers -/

/-- The identifiers that nodes of a pass have claimed so far. -/
structure Claims where
  fields : List String := []
  palettes : List String := []
  tabs : List String := []
deriving DecidableEq, Repr

/-- Claim an identifier, unless it is taken.  Sheets and containers have no
space of their own in a pass and share that of the fields. -/
def Claims.claim? (claims : Claims) (space : IdentifierSpace) (identifier : String) :
    Option Claims :=
  match space with
  | .palette =>
      if claims.palettes.contains identifier then none
      else some { claims with palettes := identifier :: claims.palettes }
  | .tab =>
      if claims.tabs.contains identifier then none
      else some { claims with tabs := identifier :: claims.tabs }
  | _ =>
      if claims.fields.contains identifier then none
      else some { claims with fields := identifier :: claims.fields }

/-- Claim an identifier for a node of the pass. -/
def PassContext.claim (context : PassContext) (claims : Claims) (space : IdentifierSpace)
    (identifier : String) : Except CompileError Claims :=
  match claims.claim? space identifier with
  | some claims => .ok claims
  | none => .error (context.fault (.duplicateIdentifier space identifier))

/-! ## What becomes of the nodes -/

/-- What becomes of one node of a pass. -/
inductive PassItem where
  | tab (identifier : String)
  /-- A palette that is not empty, with its fields. -/
  | palette (definition : PaletteDefinition) (fields : List CompiledField)
  | field (field : CompiledField)

namespace PassItem

/-- The fields that a node contributes. -/
def fields : PassItem → List CompiledField
  | .tab _ => []
  | .palette _ fields => fields
  | .field compiled => [compiled]

/-- The palette that a node contributes. -/
def palette? : PassItem → Option PaletteDefinition
  | .palette definition _ => some definition
  | _ => none

/-- The display entry of a node. -/
def showItem : PassItem → ShowItem
  | .tab identifier => .tab identifier
  | .palette definition _ => .palette definition.identifier
  | .field compiled => .field compiled.uniqueIdentifier

end PassItem

/-- A finished pass. -/
structure Pass where
  context : PassContext
  /-- The position of the pass in the field tree. -/
  path : LanguagePath
  /-- The nodes that were visited. -/
  nodes : List FieldNode
  /-- What became of them. -/
  items : List PassItem
  table : TableDefinition
  contentType : ContentType

end ContentSchema
