import ContentSchema.Catalog.Basic
import ContentSchema.Datum.Reading

/-!
# Written form of field types
-/

namespace ContentSchema

namespace FieldKind

/-- Read a structural role. -/
def decode (d : Datum) : Except DecodeError FieldKind :=
  d.oneOf word all

end FieldKind

namespace StorageKind

/-- Read a kind of storage. -/
def decode (d : Datum) : Except DecodeError StorageKind :=
  d.oneOf word all

end StorageKind

namespace ItemLabels

/-- Read a way of keying items. -/
def decode (d : Datum) : Except DecodeError ItemLabels :=
  d.oneOf word all

end ItemLabels

namespace TypeDescriptor

/-- The written form of a descriptor. -/
def encode (descriptor : TypeDescriptor) : Value :=
  .object
    [ ("name", .string descriptor.name),
      ("kind", .string descriptor.kind.word),
      ("tca", .string descriptor.storage.word),
      ("searchable", .bool descriptor.searchable),
      ("renderable", .bool descriptor.renderable),
      ("relational", .bool descriptor.relational),
      ("items", .string descriptor.items.word) ]

/-- The fields of a written descriptor. -/
def fieldNames : List String :=
  ["name", "kind", "tca", "searchable", "renderable", "relational", "items"]

/-- Read a descriptor. -/
def decode (d : Datum) : Except DecodeError TypeDescriptor := do
  let slots ← d.slots fieldNames
  return {
    name := ← slots.required "name" Datum.text
    kind := ← slots.required "kind" FieldKind.decode
    storage := ← slots.required "tca" StorageKind.decode
    searchable := ← slots.required "searchable" Datum.bool
    renderable := ← slots.required "renderable" Datum.bool
    relational := ← slots.required "relational" Datum.bool
    items := ← slots.required "items" ItemLabels.decode }

end TypeDescriptor

end ContentSchema
