import ContentSchema.Document.Settings

/-!
# Authored fields

A document is a tree of field nodes.  Palettes, tabs, line breaks, collections
and nested forms all share one shape; the type of a node decides how its nested
nodes are used.  Whatever is not one of the named attributes is configuration,
kept in the order in which it was written.
-/

namespace ContentSchema

/-- One choice of a field that offers choices. -/
structure FieldItem where
  label : Option String := none
  value : Option Value := none
  /-- Everything else that was written about the choice. -/
  extra : Entries Value := []

namespace FieldItem

/-- The attributes of a written item. -/
def attributeNames : List String := ["label", "value"]

/-- The written form of an item. -/
def encode (item : FieldItem) : Value :=
  .object (Entries.insertAll
    (Value.textEntry? "label" item.label ++ Value.entry? "value" item.value) item.extra)

/-- Read an item. -/
def decode (d : Datum) : Except DecodeError FieldItem := do
  let (found, others) ← Datum.splitKnown attributeNames (← d.entries)
  let slots : Datum.Slots := { found }
  return {
    label := ← slots.optional "label" Datum.text
    value := ← slots.optional "value" Datum.value
    extra := Entries.ofList (← others.mapM fun (name, d) => do return (name, ← d.settled)) }

end FieldItem

/-- What a field node says about itself, its nested nodes apart. -/
structure FieldAttributes where
  identifier : Option String := none
  type : Option String := none
  label : Option String := none
  description : Option String := none
  /-- Bind to a column that the target table already has. -/
  useExistingField : Bool := false
  /-- Overrides the prefix policy of the document. -/
  prefixField : Option Bool := none
  items : List FieldItem := []
  displayCond : Option Value := none
  /-- The child table of a collection. -/
  table : Option String := none
  /-- The column of the child table that points back. -/
  foreignField : Option String := none
  shareAcrossTables : Bool := false
  shareAcrossFields : Bool := false
  /-- The link title of a sheet. -/
  linkTitle : Option String := none
  config : Entries Value := []

/-- A node of the authored tree. -/
structure FieldNode extends FieldAttributes where
  /-- Nested nodes of palettes, collections, nested forms, sheets and containers. -/
  fields : List FieldNode := []
  /-- The containers of a section. -/
  container : List FieldNode := []

instance : Inhabited FieldNode := ⟨{}⟩

namespace FieldNode

/-- A node with an identifier and a type. -/
def ofType (identifier type : String) : FieldNode :=
  { identifier := some identifier, type := some type }

/-- A line break. -/
def linebreak : FieldNode :=
  { type := some "Linebreak" }

/-- A node bound to a column that the target table already has. -/
def existing (identifier : String) : FieldNode :=
  { identifier := some identifier, useExistingField := true }

/-- Write a configuration entry. -/
def withConfig (node : FieldNode) (key : String) (value : Value) : FieldNode :=
  { node with config := Entries.insert key value node.config }

/-- Whether the node is authored with the given type. -/
def hasType (node : FieldNode) (type : String) : Bool :=
  node.type = some type

/-- The identifier of the node, or the empty text. -/
def identifierText (node : FieldNode) : String :=
  node.identifier.getD ""

/-- The table settings among the configuration of the node. -/
def tableSettings (node : FieldNode) : Except DecodeError TableSettings :=
  TableSettings.decodeEntries
    ((node.config.filter fun entry => TableSettings.names.contains entry.1).map
      fun entry => (entry.1, Datum.ofValue entry.2))

end FieldNode

/-! ## Written form -/

/-- The attributes of a written node, its nested nodes apart. -/
def FieldAttributes.names : List String :=
  ["identifier", "type", "label", "description", "useExistingField", "prefixField", "items",
    "displayCond", "table", "foreignField", "shareAcrossTables", "shareAcrossFields",
    "linkTitle"]

namespace FieldNode

mutual

/-- The written form of a node. -/
def encode : FieldNode → Value
  | ⟨node, fields, container⟩ => .object (Entries.insertAll
    (Value.textEntry? "identifier" node.identifier
      ++ Value.textEntry? "type" node.type
      ++ Value.textEntry? "label" node.label
      ++ Value.textEntry? "description" node.description
      ++ Value.flagEntry? "useExistingField" node.useExistingField
      ++ Value.boolEntry? "prefixField" node.prefixField
      ++ Value.listEntry? "fields" (encodeAll fields)
      ++ Value.listEntry? "container" (encodeAll container)
      ++ Value.listEntry? "items" (node.items.map FieldItem.encode)
      ++ Value.entry? "displayCond" node.displayCond
      ++ Value.textEntry? "table" node.table
      ++ Value.textEntry? "foreignField" node.foreignField
      ++ Value.flagEntry? "shareAcrossTables" node.shareAcrossTables
      ++ Value.flagEntry? "shareAcrossFields" node.shareAcrossFields
      ++ Value.textEntry? "linkTitle" node.linkTitle)
    node.config)

/-- The written forms of a list of nodes. -/
def encodeAll : List FieldNode → List Value
  | [] => []
  | node :: rest => encode node :: encodeAll rest

end

/-- The entries of a written node: its attributes, its configuration, and its
nested nodes, already read. -/
structure Parts where
  found : List (String × Datum) := []
  others : List (String × Datum) := []
  fields : Option (List FieldNode) := none
  container : Option (List FieldNode) := none

/-- Add an entry that holds no nodes in front of the others. -/
def Parts.add (parts : Parts) (name : String) (d : Datum) : Except DecodeError Parts :=
  if FieldAttributes.names.contains name then
    if (parts.found.lookup name).isSome then .error (.repeated name)
    else .ok { parts with found := (name, d) :: parts.found }
  else .ok { parts with others := (name, d) :: parts.others }

/-- The node that the entries make up. -/
def ofParts (parts : Parts) : Except DecodeError FieldNode := do
  let slots : Datum.Slots := { found := parts.found }
  return {
    identifier := ← slots.optional "identifier" Datum.text
    type := ← slots.optional "type" Datum.text
    label := ← slots.optional "label" Datum.text
    description := ← slots.optional "description" Datum.text
    useExistingField := ← slots.withDefault "useExistingField" false Datum.bool
    prefixField := ← slots.optional "prefixField" Datum.bool
    items := ← slots.withDefault "items" [] (Datum.listOf FieldItem.decode)
    displayCond := ← slots.optional "displayCond" Datum.value
    table := ← slots.optional "table" Datum.text
    foreignField := ← slots.optional "foreignField" Datum.text
    shareAcrossTables := ← slots.withDefault "shareAcrossTables" false Datum.bool
    shareAcrossFields := ← slots.withDefault "shareAcrossFields" false Datum.bool
    linkTitle := ← slots.optional "linkTitle" Datum.text
    config := Entries.ofList
      (← parts.others.mapM fun (name, d) => do return (name, ← d.settled))
    fields := parts.fields.getD []
    container := parts.container.getD [] }

mutual

/-- Read a node. -/
def decode : Datum → Except DecodeError FieldNode
  | .record entries => do ofParts (← decodeParts entries)
  | .tagged d => decode d
  | .scalar s =>
      if s.isVacant then .ok {} else .error (.unexpected (Datum.describe (.scalar s)) "a map")
  | d => .error (.unexpected d.describe "a map")

/-- Read the entries of a node. -/
def decodeParts : List (Datum × Datum) → Except DecodeError Parts
  | [] => .ok {}
  | (name, d) :: rest => do
      let name ← name.text
      let parts ← decodeParts rest
      if name = "fields" then do
        let nodes ← decodeList d
        if parts.fields.isSome then .error (.repeated name)
        else .ok { parts with fields := some nodes }
      else if name = "container" then do
        let nodes ← decodeList d
        if parts.container.isSome then .error (.repeated name)
        else .ok { parts with container := some nodes }
      else parts.add name d

/-- Read a list of nodes. -/
def decodeList : Datum → Except DecodeError (List FieldNode)
  | .list items => decodeAll items
  | .tagged d => decodeList d
  | .scalar s =>
      if s.isVacant then .ok []
      else .error (.unexpected (Datum.describe (.scalar s)) "a sequence")
  | d => .error (.unexpected d.describe "a sequence")

/-- Read each node of a list. -/
def decodeAll : List Datum → Except DecodeError (List FieldNode)
  | [] => .ok []
  | d :: rest => do
      let node ← decode d
      let nodes ← decodeAll rest
      return node :: nodes

end

end FieldNode

end ContentSchema
