import ContentSchema.Compiler.Walk

/-!
# Labels of fields and items

A field registers its label and its description, and those of its labelled
items.  A field without form presence registers nothing; the path of its label
is still known.
-/

namespace ContentSchema

/-- An item as compiled, the path of its label apart: what else was written,
then its label and its value. -/
def FieldItem.compiled (item : FieldItem) : Entries Value :=
  Entries.insertAll item.extra
    (Value.textEntry? "label" item.label ++ Value.entry? "value" item.value)

/-- What an item is keyed by: its value if the type says so and there is one,
and its place otherwise. -/
def FieldItem.key (item : FieldItem) (labels : ItemLabels) (index : Nat) : String :=
  match labels, item.value with
  | .byValue, some (.string s) => s
  | .byValue, some value => Json.compact value
  | _, _ => toString index

namespace PassContext

/-- Register label and description of a field, and give their paths. -/
def registerLabels (context : PassContext) (path : LanguagePath) (node : FieldNode)
    (identifier : String) (type : TypeDescriptor) : Walk (String × Option String) :=
  if type.storage = .passthrough then pure (path.pathFor "label", none)
  else do
    let label ← context.register path "label" (node.label.getD identifier)
    let description ← context.registerOptional path "description" node.description
    return (label, description)

/-- Register the label of one item, and give the compiled item. -/
def registerItem (context : PassContext) (path : LanguagePath) (labels : ItemLabels)
    (index : Nat) (item : FieldItem) : Walk Value :=
  match item.label with
  | none => pure (.object item.compiled)
  | some label => do
      let labelPath ←
        context.register path ("items." ++ item.key labels index ++ ".label") label
      return .object (Entries.insert "labelPath" (.string labelPath) item.compiled)

/-- Register the labels of items that stand at consecutive places. -/
def registerItemsFrom (context : PassContext) (path : LanguagePath) (labels : ItemLabels)
    (index : Nat) : List FieldItem → Walk (List Value)
  | [] => pure []
  | item :: rest => do
      let compiled ← context.registerItem path labels index item
      let more ← registerItemsFrom context path labels (index + 1) rest
      return compiled :: more

/-- Register the labels of the items of a field, and give the compiled items if
the type has items and there are any. -/
def registerItems (context : PassContext) (path : LanguagePath) (node : FieldNode)
    (type : TypeDescriptor) : Walk (Option Value) :=
  if type.items = .none || node.items.isEmpty then pure none
  else do return some (.list (← context.registerItemsFrom path type.items 0 node.items))

end PassContext
end ContentSchema
