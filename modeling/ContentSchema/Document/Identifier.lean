import ContentSchema.Document.Basic
import ContentSchema.Error

/-!
# Generated identifiers

Several documents may write columns into one table, so the identifiers of a
document are set apart by a beginning that is made from its name.  Columns of
child tables and columns that already exist keep their authored identifiers.
-/

namespace ContentSchema

/-- How identifiers are set apart. -/
structure PrefixPolicy where
  enabled : Bool
  style : PrefixStyle
  /-- Stands for the vendor. -/
  vendorPrefix : Option String := none
deriving DecidableEq, Repr

namespace PrefixPolicy

/-- The policy that a document declares. -/
def ofDocument (document : SchemaDocument) : PrefixPolicy where
  enabled := document.prefixFields
  style := document.prefixStyle
  vendorPrefix := document.vendorPrefix

/-- The written form of a policy. -/
def encode (policy : PrefixPolicy) : Value :=
  .object
    [ ("enabled", .bool policy.enabled),
      ("style", .string policy.style.word),
      ("vendor_prefix", (policy.vendorPrefix.map Value.string).getD .null) ]

/-- Read a policy. -/
def decode (d : Datum) : Except DecodeError PrefixPolicy := do
  let slots ← d.slots ["enabled", "style", "vendor_prefix"]
  return {
    enabled := ← slots.required "enabled" Datum.bool
    style := ← slots.required "style" PrefixStyle.decode
    vendorPrefix := ← slots.nullable "vendor_prefix" Datum.text }

end PrefixPolicy

/-- The two parts of a qualified name, or the fault of having no such parts. -/
def splitQualifiedName (name : String) : Except CompileError (String × String) :=
  match splitQualifiedName? name with
  | some parts => .ok parts
  | none => .error ⟨name, .invalidQualifiedName⟩

/-- Vendor and package without dashes, joined by an underscore. -/
def joinedName (vendor package : String) : String :=
  Text.without '-' vendor ++ "_" ++ Text.without '-' package

/-- What stands before the identifiers of the named document. -/
def prefixFor (name : String) (policy : PrefixPolicy) : Except CompileError String := do
  let (vendor, package) ← splitQualifiedName name
  let vendor := policy.vendorPrefix.getD vendor
  return match policy.style with
    | .full => joinedName vendor package
    | .vendor => Text.without '-' vendor

/-- The identifier that an authored one becomes. -/
def assignIdentifier (owner : String) (policy : PrefixPolicy) (raw : String) :
    Except CompileError String :=
  if policy.enabled then do return (← prefixFor owner policy) ++ "_" ++ raw
  else .ok raw

/-- The identifier that a field becomes.  Only fields of the root table that do
not bind to an existing column are set apart, and a field may override the
policy. -/
def assignFieldIdentifier (owner : String) (policy : PrefixPolicy) (node : FieldAttributes)
    (raw : String) (onRootTable : Bool) : Except CompileError String :=
  if !onRootTable || node.useExistingField then .ok raw
  else assignIdentifier owner { policy with enabled := node.prefixField.getD policy.enabled } raw

end ContentSchema
