import ContentSchema.Compiler.Labels
import ContentSchema.Compiler.Resolution

/-!
# Nested forms

A nested form holds either plain leaves, which make up one implicit sheet, or
sheets of leaves, never both.  A leaf is a field or a section; a section lists
containers, whose fields have to be form elements of their own.

Leaf identifiers are unique across all sheets of a form.  Those of containers
are unique within their section, and those of the fields of a container within
that container.
-/

namespace ContentSchema

namespace FlexForm

/-- The key of the implicit sheet. -/
def defaultSheet : String := "sDEF"

/-- The key of the data structure in a table without a discriminator. -/
def defaultKey : String := "default"

/-- The type that marks a sheet. -/
def sheetType : String := "Sheet"

/-- The type that marks a section. -/
def sectionType : String := "Section"

/-- Where a leaf stands. -/
inductive Place where
  | sheet
  | container
deriving DecidableEq, Repr

/-- Whether a field of the given type may stand in a place. -/
def Place.admits (place : Place) (type : TypeDescriptor) : Bool :=
  type.kind = .ordinary && (place = .sheet || type.renderable)

/-- Whether the nodes of a form are sheets: all of them or none. -/
def sheetLayout? (nodes : List FieldNode) : Option Bool :=
  if nodes.all fun node => !node.hasType sheetType then some false
  else if nodes.all fun node => node.hasType sheetType then some true
  else none

/-- Add an identifier to those that are taken, unless it is one of them. -/
def take (context : PassContext) (space : IdentifierSpace) (taken : List String)
    (identifier : String) : Except CompileError (List String) :=
  if taken.contains identifier then
    .error (context.fault (.duplicateIdentifier space identifier))
  else .ok (identifier :: taken)

/-- The element of a field with its identifier. -/
def leaf (context : PassContext) (path : LanguagePath) (form : String) (place : Place)
    (node : FieldNode) : Walk (String × Value) := do
  let type ← context.resolve node
  if !place.admits type then
    context.fail (.disallowedField form node.identifierText type.name)
  let identifier ← context.requireIdentifier node type.name
  let position := path.push identifier
  let (label, description) ← context.registerLabels position node identifier type
  let items ← context.registerItems position node type
  let config := Entries.insertAll node.config (Value.entry? "items" items)
  return (identifier, .object
    ([("label", .string label)]
      ++ Value.textEntry? "description" description
      ++ [("type", .string type.name)]
      ++ Value.entry? "displayCond" node.displayCond
      ++ [("config", .object config)]))

/-- The elements of the fields of a container. -/
def containerElements (context : PassContext) (path : LanguagePath) (form : String)
    (taken : List String) : List FieldNode → Walk (List (String × Value))
  | [] => pure []
  | node :: rest => do
      let element ← leaf context path form .container node
      let taken ← take context .field taken element.1
      let more ← containerElements context path form taken rest
      return element :: more

/-- The containers of a section, whose position is `key`. -/
def containers (context : PassContext) (path : LanguagePath) (form key : String)
    (taken : List String) : List FieldNode → Walk (List (String × Value))
  | [] => pure []
  | node :: rest => do
      let identifier ← context.requireIdentifier node "Container"
      let taken ← take context .container taken identifier
      if node.fields.isEmpty then
        context.fail (.emptyContainer form identifier)
      let position := key ++ ".container." ++ identifier
      let title ← context.register path (position ++ ".title") (node.label.getD identifier)
      let elements ← containerElements context (path.push position) form [] node.fields
      let more ← containers context path form key taken rest
      return (identifier, .object
        [ ("title", .string title),
          ("type", .string "array"),
          ("el", .object elements) ]) :: more

/-- The element of a section. -/
def sectionElement (context : PassContext) (path : LanguagePath) (form : String)
    (node : FieldNode) (identifier : String) : Walk Value := do
  if node.container.isEmpty then
    context.fail (.emptySection form identifier)
  let key := "sections." ++ identifier
  let title ← context.register path (key ++ ".title") (node.label.getD identifier)
  let elements ← containers context path form key [] node.container
  return .object
    [ ("title", .string title),
      ("type", .string "array"),
      ("section", .int 1),
      ("el", .object elements) ]

/-- The elements of the leaves of a sheet, with the identifiers taken so far. -/
def sheetElements (context : PassContext) (path : LanguagePath) (form : String)
    (taken : List String) : List FieldNode → Walk (List String × List (String × Value))
  | [] => pure (taken, [])
  | node :: rest => do
      if node.hasType sectionType then
        let identifier ← context.requireIdentifier node sectionType
        let taken ← take context .field taken identifier
        let element ← sectionElement context path form node identifier
        let (taken, more) ← sheetElements context path form taken rest
        return (taken, (identifier, element) :: more)
      else
        let element ← leaf context path form .sheet node
        let taken ← take context .field taken element.1
        let (taken, more) ← sheetElements context path form taken rest
        return (taken, element :: more)

/-- The texts that a sheet shows, registered. -/
def sheetTexts (context : PassContext) (path : LanguagePath) (sheet : FieldNode)
    (identifier : String) : Walk (List (String × Value)) := do
  let key := "sheets." ++ identifier
  let title ← context.register path (key ++ ".label") (sheet.label.getD identifier)
  let description ← context.registerOptional path (key ++ ".description") sheet.description
  let linkTitle ← context.registerOptional path (key ++ ".linkTitle") sheet.linkTitle
  return [("sheetTitle", .string title)]
    ++ Value.textEntry? "sheetDescription" description
    ++ Value.textEntry? "sheetShortDescr" linkTitle

/-- A sheet made of its texts and its elements. -/
def sheetValue (texts elements : List (String × Value)) : Value :=
  .object
    [ ("ROOT", .object
        (texts ++ [("type", .string "array"), ("el", .object elements)])) ]

/-- The sheets of a form in order. -/
def sheets (context : PassContext) (path : LanguagePath) (form : String)
    (sheetsTaken leavesTaken : List String) :
    List FieldNode → Walk (List (String × Value))
  | [] => pure []
  | sheet :: rest => do
      let identifier ← context.requireIdentifier sheet sheetType
      let sheetsTaken ← take context .sheet sheetsTaken identifier
      let texts ← sheetTexts context path sheet identifier
      let (leavesTaken, elements) ←
        sheetElements context path form leavesTaken sheet.fields
      let more ← sheets context path form sheetsTaken leavesTaken rest
      return (identifier, sheetValue texts elements) :: more

/-- The key under which a pass stores the data structure of a form. -/
def structureKey (context : PassContext) : String :=
  match context.typeField, context.typeName with
  | some _, some typeName => typeName
  | _, _ => defaultKey

/-- The data structure of a form. -/
def expand (context : PassContext) (path : LanguagePath) (form : String)
    (nodes : List FieldNode) : Walk Value := do
  match sheetLayout? nodes with
  | none => context.fail (.mixedSheets form)
  | some false =>
      let (_, elements) ← sheetElements context path form [] nodes
      return structureOf context [(defaultSheet, sheetValue [] elements)]
  | some true =>
      return structureOf context (← sheets context path form [] [] nodes)
where
  /-- The data structure made of its sheets. -/
  structureOf (context : PassContext) (sheets : List (String × Value)) : Value :=
    .object [(structureKey context, .object [("sheets", .object sheets)])]

end FlexForm

end ContentSchema
