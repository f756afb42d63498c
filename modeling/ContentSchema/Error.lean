import ContentSchema.Datum.Reading

/-!
# Compilation errors

The first violation met in the order of the walk ends a compilation.  An error
names the document it was met in and the fault itself; each kind of fault has a
number, a category and a wording of its own.
-/

namespace ContentSchema

/-- What a repeated identifier identifies. -/
inductive IdentifierSpace where
  | field
  | palette
  | tab
  | sheet
  | container
deriving DecidableEq, Repr

namespace IdentifierSpace

/-- The word for a space of identifiers. -/
def word : IdentifierSpace → String
  | field => "field"
  | palette => "palette"
  | tab => "tab"
  | sheet => "sheet"
  | container => "container"

/-- Every space of identifiers. -/
def all : List IdentifierSpace := [field, palette, tab, sheet, container]

end IdentifierSpace

/-- What is wrong with a document. -/
inductive Fault where
  /-- The name has not the form `vendor/package`. -/
  | invalidQualifiedName
  /-- The document targets no table. -/
  | missingTable
  /-- A discriminator value is required or blank. -/
  | missingTypeName
  | missingIdentifier (context : String)
  | missingType (identifier : String) (valid : List String)
  | unknownType (identifier typeName : String) (valid : List String)
  /-- An identifier is used twice within one pass. -/
  | duplicateIdentifier (space : IdentifierSpace) (identifier : String)
  | linebreakOutsidePalette
  | nestedInPalette (palette identifier kind : String)
  /-- A nested form has sheets beside other nodes. -/
  | mixedSheets (flexForm : String)
  /-- A section of a nested form has no containers. -/
  | emptySection (flexForm name : String)
  /-- A container of a nested form has no fields. -/
  | emptyContainer (flexForm container : String)
  /-- A nested form holds a field that it cannot show. -/
  | disallowedField (flexForm field typeName : String)
  /-- The table settings of a collection cannot be read. -/
  | invalidTableSettings (identifier : String) (cause : DecodeError)
  | invalidSortOrder (field value : String)
  | invalidEnumValue (name value : String) (valid : List String)
deriving DecidableEq, Repr

/-- The classes of faults. -/
inductive ErrorCategory where
  | missingRequiredAttribute
  | unknownType
  | duplicateIdentifier
  | structuralViolation
  | invalidEnumValue
deriving DecidableEq, Repr

/-- The word for a class of faults. -/
def ErrorCategory.word : ErrorCategory → String
  | missingRequiredAttribute => "missing-required-attribute"
  | unknownType => "unknown-type"
  | duplicateIdentifier => "duplicate-identifier"
  | structuralViolation => "structural-violation"
  | invalidEnumValue => "invalid-enum-value"

namespace Fault

/-- The number of a kind of fault. -/
def code : Fault → Nat
  | invalidQualifiedName => 1700000101
  | missingTable => 1700000102
  | missingTypeName => 1700000103
  | missingIdentifier .. => 1700000104
  | missingType .. => 1700000105
  | unknownType .. => 1700000201
  | duplicateIdentifier .. => 1700000301
  | linebreakOutsidePalette => 1700000401
  | nestedInPalette .. => 1700000402
  | mixedSheets .. => 1700000403
  | emptySection .. => 1700000404
  | emptyContainer .. => 1700000405
  | disallowedField .. => 1700000406
  | invalidTableSettings .. => 1700000407
  | invalidSortOrder .. => 1700000501
  | invalidEnumValue .. => 1700000502

/-- The class of a fault. -/
def category : Fault → ErrorCategory
  | invalidQualifiedName => .missingRequiredAttribute
  | missingTable => .missingRequiredAttribute
  | missingTypeName => .missingRequiredAttribute
  | missingIdentifier .. => .missingRequiredAttribute
  | missingType .. => .missingRequiredAttribute
  | unknownType .. => .unknownType
  | duplicateIdentifier .. => .duplicateIdentifier
  | linebreakOutsidePalette => .structuralViolation
  | nestedInPalette .. => .structuralViolation
  | mixedSheets .. => .structuralViolation
  | emptySection .. => .structuralViolation
  | emptyContainer .. => .structuralViolation
  | disallowedField .. => .structuralViolation
  | invalidTableSettings .. => .structuralViolation
  | invalidSortOrder .. => .invalidEnumValue
  | invalidEnumValue .. => .invalidEnumValue

end Fault

/-- A fault and the document it was met in. -/
structure CompileError where
  document : String
  fault : Fault
deriving DecidableEq, Repr

namespace CompileError

/-- The number of the error. -/
def code (error : CompileError) : Nat :=
  error.fault.code

/-- The class of the error. -/
def category (error : CompileError) : ErrorCategory :=
  error.fault.category

/-- A name between quotation marks. -/
def quoted (name : String) : String :=
  "\"" ++ name ++ "\""

/-- Names separated by commas. -/
def listed (names : List String) : String :=
  ", ".intercalate names

/-- The wording of the error. -/
def message (error : CompileError) : String :=
  let inDocument := " in content block " ++ quoted error.document
  match error.fault with
  | .invalidQualifiedName =>
      "content block name " ++ quoted error.document
        ++ " must have the format \"vendor/package\""
  | .missingTable =>
      "content block " ++ quoted error.document ++ " must declare a non-empty \"table\""
  | .missingTypeName =>
      "content block " ++ quoted error.document ++ " must declare a non-empty \"typeName\""
  | .missingIdentifier context =>
      "a field" ++ inDocument ++ " is missing the required \"identifier\" (" ++ context ++ ")"
  | .missingType identifier valid =>
      "field " ++ quoted identifier ++ inDocument
        ++ " is missing the required \"type\"; valid types are: " ++ listed valid
  | .unknownType identifier typeName valid =>
      "type " ++ quoted typeName ++ " of field " ++ quoted identifier ++ inDocument
        ++ " does not exist; valid types are: " ++ listed valid
  | .duplicateIdentifier space identifier =>
      space.word ++ " identifier " ++ quoted identifier ++ inDocument
        ++ " is used more than once"
  | .linebreakOutsidePalette =>
      "line breaks are only allowed inside palettes (content block " ++ quoted error.document
        ++ ")"
  | .nestedInPalette palette identifier kind =>
      "palette " ++ quoted palette ++ inDocument ++ " must not contain the " ++ kind ++ " "
        ++ quoted identifier
  | .mixedSheets flexForm =>
      "FlexForm field " ++ quoted flexForm ++ inDocument ++ " mixes sheets with plain fields"
  | .emptySection flexForm name =>
      "section " ++ quoted name ++ " of FlexForm field " ++ quoted flexForm ++ inDocument
        ++ " must define at least one container"
  | .emptyContainer flexForm container =>
      "container " ++ quoted container ++ " of FlexForm field " ++ quoted flexForm ++ inDocument
        ++ " must define at least one field"
  | .disallowedField flexForm field typeName =>
      "field " ++ quoted field ++ " of type " ++ quoted typeName
        ++ " is not allowed inside FlexForm field " ++ quoted flexForm ++ inDocument
  | .invalidTableSettings identifier cause =>
      "table settings of collection " ++ quoted identifier ++ inDocument ++ " are invalid: "
        ++ cause.message
  | .invalidSortOrder field value =>
      "sort order " ++ quoted value ++ " for field " ++ quoted field ++ inDocument
        ++ " is invalid; use \"asc\" or \"desc\""
  | .invalidEnumValue name value valid =>
      quoted value ++ " is not a valid " ++ name ++ inDocument ++ "; valid values are: "
        ++ listed valid

end CompileError

end ContentSchema
