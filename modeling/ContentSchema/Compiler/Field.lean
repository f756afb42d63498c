import ContentSchema.Compiler.Closing
import ContentSchema.Compiler.FlexForm

/-!
# Compiling one field

A field claims its identifier, registers its labels and carries its
configuration over.  A nested form adds its data structure, labelled items are
added where the type has items, and a collection is linked to its child table
and compiles its nested fields in a pass of their own.
-/

namespace ContentSchema

/-- The column of a child table that points back to its parent, unless another
is authored. -/
def defaultForeignField : String := "foreign_table_parent_uid"

/-- How a pass compiles the nested fields of a collection. -/
abbrev NestedWalk := PassContext → LanguagePath → Walk (List PassItem)

namespace PassContext

/-- Title and description of the content type, registered when the pass writes
the root table. -/
def registerTitle (context : PassContext) (path : LanguagePath) (contentType : ContentType) :
    Walk ContentType := do
  if context.isRootTable then
    let title := context.displayTitle
    let titlePath ← context.register path "title" title
    let descriptionPath ←
      context.register path "description" (context.description.getD "")
    return { contentType with
      title := some title
      titlePath := some titlePath
      description := context.description
      descriptionPath := some descriptionPath }
  else
    return { contentType with title := context.title, description := context.description }

/-- A whole pass: its table is opened, its title registered, its nodes walked,
and what became of them put together. -/
def compilePass (context : PassContext) (path : LanguagePath) (nodes : List FieldNode)
    (walk : NestedWalk) : Walk Unit := do
  Walk.emit { opened := [context.table] }
  let contentType ← context.contentType
  let contentType ← context.registerTitle path contentType
  let items ← walk context path
  let pass ← Pass.close context path nodes contentType items
  Walk.emit { passes := [pass] }

/-- The configuration that a field carries over: all of it, except that a
collection leaves out the settings of its child table. -/
def carriedConfig (node : FieldNode) (type : TypeDescriptor) : Entries Value :=
  node.config.filter fun entry =>
    type.kind ≠ .collection || !TableSettings.names.contains entry.1

/-- The configuration that links a collection to its child table. -/
def linkConfig (node : FieldNode) (childTable unique : String) : Entries Value :=
  [("foreign_table", .string childTable),
    ("foreign_field", .string (node.foreignField.getD defaultForeignField))]
    ++ (if node.shareAcrossTables then [("foreign_table_field", .string "tablenames")] else [])
    ++ (if node.shareAcrossFields then
          [("foreign_match_fields", .object [("fieldname", .string unique)])]
        else [])

/-- A collection field linked to its child table, whose nested fields, if there
are any, are compiled in a pass of their own. -/
def expandCollection (context : PassContext) (path : LanguagePath) (node : FieldNode)
    (nested : NestedWalk) (field : CompiledField) : Walk CompiledField := do
  let childTable := node.table.getD field.uniqueIdentifier
  let field := { field with
    config := Entries.insertAll field.config (linkConfig node childTable field.uniqueIdentifier) }
  refer childTable field
  if !node.fields.isEmpty then
    let child ← context.ofCollection node childTable
    child.compilePass path node.fields nested
  return field

/-- One field of a pass. -/
def compileField (context : PassContext) (path : LanguagePath) (claims : Claims)
    (type : TypeDescriptor) (node : FieldNode) (nested : NestedWalk) :
    Walk (Claims × CompiledField) := do
  let identifier ← context.requireIdentifier node type.name
  let claims ← context.claim claims .field identifier
  let unique ← context.fieldIdentifier node.toFieldAttributes identifier
  let position := path.push identifier
  let (labelPath, descriptionPath) ← context.registerLabels position node identifier type
  let structure? ←
    if type.kind = .flexForm then
      some <$> FlexForm.expand context position identifier node.fields
    else pure none
  let items ← context.registerItems position node type
  let config := Entries.insertAll (carriedConfig node type)
    (Value.entry? "ds" structure? ++ Value.entry? "items" items)
  let field : CompiledField := {
    uniqueIdentifier := unique
    identifier
    fieldType := type
    label := node.label
    description := node.description
    labelPath, descriptionPath
    useExistingField := node.useExistingField
    displayCond := node.displayCond
    config }
  let field ←
    if type.storage = .inline then context.expandCollection position node nested field
    else pure field
  return (claims, field)

end PassContext
end ContentSchema
