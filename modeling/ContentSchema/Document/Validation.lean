import ContentSchema.Document.Identifier
import ContentSchema.Text.Blank

/-!
# Valid documents

What has to hold of a document before its fields are visited: its qualified
name, its table, its discriminator column and its discriminator value.
-/

namespace ContentSchema
namespace SchemaDocument

/-- The error of a fault in this document. -/
def fault (document : SchemaDocument) (fault : Fault) : CompileError :=
  ⟨document.name, fault⟩

/-- The name without dashes, its parts joined by an underscore. -/
def joinedName (document : SchemaDocument) : Except CompileError String := do
  let (vendor, package) ← splitQualifiedName document.name
  return ContentSchema.joinedName vendor package

/-- The discriminator value: the authored one, or one made from the name for
content elements and for records that have a discriminator column. -/
def resolvedTypeName (document : SchemaDocument) : Except CompileError String :=
  match document.typeName with
  | some typeName =>
      if Text.isBlank typeName then .error (document.fault .missingTypeName) else .ok typeName
  | none =>
      match document.kind with
      | .contentElement => document.joinedName
      | .recordType => if document.typeField.isSome then document.joinedName else .ok "1"
      | .pageType => .error (document.fault .missingTypeName)
      | .fileType => .error (document.fault .missingTypeName)

/-- Check everything that has to hold before the fields are visited. -/
def validate (document : SchemaDocument) : Except CompileError Unit := do
  let _ ← splitQualifiedName document.name
  if document.tableName.all Text.isBlank then
    throw (document.fault .missingTable)
  if document.typeField.any Text.isBlank then
    throw (document.fault (.missingIdentifier "typeField"))
  let typeName ← document.resolvedTypeName
  if document.kind = .fileType && !fileTypeNames.contains typeName then
    throw (document.fault (.invalidEnumValue "typeName" typeName fileTypeNames))

end SchemaDocument
end ContentSchema
