import ContentSchema.Compiler.Pass

/-!
# Resolving types

The type of a node is that of the column it binds to, if it binds to a described
one, and otherwise the registered type that it names.  Every type except the
line break needs an identifier.
-/

namespace ContentSchema

/-- The identifier of a node, unless it is absent or blank. -/
def FieldNode.identifier? (node : FieldNode) : Option String :=
  node.identifier.filter fun identifier => !Text.isBlank identifier

namespace PassContext

/-- The identifier of a node, which something of the named type needs. -/
def requireIdentifier (context : PassContext) (node : FieldNode) (typeName : String) :
    Except CompileError String :=
  match node.identifier? with
  | some identifier => .ok identifier
  | none =>
      .error (context.fault (.missingIdentifier ("type " ++ CompileError.quoted typeName)))

/-- The type that a node names. -/
def authoredType (context : PassContext) (node : FieldNode) :
    Except CompileError TypeDescriptor := do
  let catalog := context.environment.catalog
  match node.type with
  | none => throw (context.fault (.missingType node.identifierText catalog.names))
  | some typeName =>
      match catalog.find? typeName with
      | none =>
          throw (context.fault (.unknownType node.identifierText typeName catalog.names))
      | some type =>
          if type.kind ≠ .linebreak then
            let _ ← context.requireIdentifier node typeName
          return type

/-- The type of a node. -/
def resolve (context : PassContext) (node : FieldNode) :
    Except CompileError TypeDescriptor := do
  if node.useExistingField then
    let identifier ← context.requireIdentifier node "useExistingField"
    match context.environment.baseSchema.get? context.table identifier with
    | some type => return type
    | none => context.authoredType node
  else context.authoredType node

end PassContext
end ContentSchema
