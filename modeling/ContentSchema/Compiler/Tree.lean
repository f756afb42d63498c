import ContentSchema.Compiler.Field

/-!
# The walk over the field tree

The nodes of a pass are compiled in order.  Tabs and palettes only shape the
display; the fields of a palette belong to the pass like any other.  A palette
without fields leaves no trace.
-/

namespace ContentSchema
namespace PassContext

/-- Claim and register a tab. -/
def compileTab (context : PassContext) (path : LanguagePath) (claims : Claims)
    (node : FieldNode) : Walk (Claims × List PassItem) := do
  let identifier ← context.requireIdentifier node "Tab"
  let claims ← context.claim claims .tab identifier
  let _ ← context.register path ("tabs." ++ identifier) (node.label.getD identifier)
  return (claims, [.tab identifier])

/-- One entry of a palette: a field or a line break. -/
inductive PaletteEntry where
  | field (field : CompiledField)
  | linebreak

/-- The entry of a palette definition. -/
def PaletteEntry.item : PaletteEntry → PaletteItem
  | .field compiled => .field compiled.uniqueIdentifier
  | .linebreak => .linebreak

/-- The field of a palette entry. -/
def PaletteEntry.field? : PaletteEntry → Option CompiledField
  | .field compiled => some compiled
  | .linebreak => none

/-- Register a palette that is not empty, compile its entries, and put it
together. -/
def compilePalette (context : PassContext) (path : LanguagePath) (claims : Claims)
    (node : FieldNode) (identifier : String)
    (entries : Claims → Walk (Claims × List PaletteEntry)) : Walk (Claims × List PassItem) := do
  let claims ← context.claim claims .palette identifier
  if node.fields.isEmpty then return (claims, [])
  let unique ← context.paletteIdentifier node.toFieldAttributes identifier
  let key := "palettes." ++ identifier
  let labelPath ← context.register path (key ++ ".label") (node.label.getD identifier)
  let descriptionPath ←
    context.registerOptional path (key ++ ".description") node.description
  let (claims, entries) ← entries claims
  let definition : PaletteDefinition := {
    identifier := unique
    label := node.label
    description := node.description
    labelPath, descriptionPath
    items := entries.map PaletteEntry.item }
  return (claims, [.palette definition (entries.filterMap PaletteEntry.field?)])

mutual

/-- The nodes of a pass in order. -/
def compileNodes (context : PassContext) (path : LanguagePath) (claims : Claims) :
    List FieldNode → Walk (Claims × List PassItem)
  | [] => pure (claims, [])
  | node :: rest => do
      let (claims, items) ← compileNode context path claims node
      let (claims, more) ← compileNodes context path claims rest
      return (claims, items ++ more)

/-- One node of a pass. -/
def compileNode (context : PassContext) (path : LanguagePath) (claims : Claims) :
    FieldNode → Walk (Claims × List PassItem)
  | ⟨attributes, fields, container⟩ => do
      let node : FieldNode := ⟨attributes, fields, container⟩
      let type ← context.resolve node
      match type.kind with
      | .linebreak => context.fail .linebreakOutsidePalette
      | .tab => context.compileTab path claims node
      | .palette => do
          let identifier ← context.requireIdentifier node "Palette"
          context.compilePalette path claims node identifier fun claims =>
            compileEntries context path identifier claims fields
      | _ => do
          let (claims, field) ← context.compileField path claims type node
            fun child position => Prod.snd <$> compileNodes child position {} fields
          return (claims, [.field field])

/-- The nodes of the named palette in order. -/
def compileEntries (context : PassContext) (path : LanguagePath) (palette : String)
    (claims : Claims) : List FieldNode → Walk (Claims × List PaletteEntry)
  | [] => pure (claims, [])
  | node :: rest => do
      let (claims, entry) ← compileEntry context path palette claims node
      let (claims, more) ← compileEntries context path palette claims rest
      return (claims, entry :: more)

/-- One node of the named palette. -/
def compileEntry (context : PassContext) (path : LanguagePath) (palette : String)
    (claims : Claims) : FieldNode → Walk (Claims × PaletteEntry)
  | ⟨attributes, fields, container⟩ => do
      let node : FieldNode := ⟨attributes, fields, container⟩
      let type ← context.resolve node
      match type.kind with
      | .palette | .tab =>
          context.fail (.nestedInPalette palette node.identifierText (Text.lower type.name))
      | .linebreak => return (claims, .linebreak)
      | _ => do
          let (claims, field) ← context.compileField path claims type node
            fun child position => Prod.snd <$> compileNodes child position {} fields
          return (claims, .field field)

end

end PassContext
end ContentSchema
