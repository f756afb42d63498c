import ContentSchema.Datum.Scalar
import ContentSchema.Value.Basic

/-!
# Data before its fields are known

A `Datum` is what a parsed text says before a reader asks for particular
fields.  It is wider than `Value` in three ways: scalars may still be untyped,
names may be any datum and may repeat, and a part may carry a local tag.

Two ways lead back to values.  `typed?` settles the type of every scalar on its
own, names included.  `value?` reads a datum directly as a value: scalars take
their own types but every name is read as text.  A repeated name keeps its
first place and its last value.
-/

namespace ContentSchema

/-- Parsed data before its fields are known. -/
inductive Datum where
  | atom (a : Atom)
  | scalar (s : Scalar)
  | list (items : List Datum)
  | record (entries : List (Datum × Datum))
  /-- A part under a local tag: it can be read where its type is known, and has
  no type of its own. -/
  | tagged (d : Datum)
deriving Inhabited, Repr

namespace Datum

mutual

/-- A value as data: all its scalars are typed and all names are texts. -/
def ofValue : Value → Datum
  | .null => .atom .null
  | .bool b => .atom (.bool b)
  | .int n => .atom (.int n)
  | .double d => .atom (.double d)
  | .string s => .atom (.string s)
  | .list items => .list (ofItems items)
  | .object entries => .record (ofEntries entries)

/-- Each item as data. -/
def ofItems : List Value → List Datum
  | [] => []
  | item :: rest => ofValue item :: ofItems rest

/-- Each entry as data. -/
def ofEntries : List (String × Value) → List (Datum × Datum)
  | [] => []
  | (key, value) :: rest => (.atom (.string key), ofValue value) :: ofEntries rest

end

/-- The text of a datum where a text is expected: any scalar as written, or a
typed text. -/
def text? : Datum → Option String
  | .atom (.string s) => some s
  | .scalar s => some s.text
  | .tagged d => text? d
  | _ => none

/-- The truth value of a datum where one is expected. -/
def bool? : Datum → Option Bool
  | .atom (.bool b) => some b
  | .scalar s => if s.admits Scalar.boolTag then Scalar.bool? s.text else none
  | .tagged d => bool? d
  | _ => none

/-- The integer of a datum where one is expected. -/
def int? : Datum → Option Int
  | .atom (.int n) => some n
  | .scalar s => if s.admits Scalar.intTag then Scalar.integer? s.text.toList else none
  | .tagged d => int? d
  | _ => none

/-- The items of a datum where a list is expected; an empty plain scalar has none. -/
def items? : Datum → Option (List Datum)
  | .list items => some items
  | .scalar s => if s.isVacant then some [] else none
  | .tagged d => items? d
  | _ => none

/-- The entries of a datum where a record is expected; an empty plain scalar has none. -/
def entries? : Datum → Option (List (Datum × Datum))
  | .record entries => some entries
  | .scalar s => if s.isVacant then some [] else none
  | .tagged d => entries? d
  | _ => none

/-- Whether an optional datum is absent: a null, or a plain scalar that is
empty or spells null. -/
def isNull : Datum → Bool
  | .atom .null => true
  | .scalar s =>
      s.style = .plain &&
        match s.tag with
        | none => s.text.isEmpty || Scalar.isNullText s.text
        | some tag => tag = Scalar.nullTag && Scalar.isNullText s.text
  | _ => false

/-- Whether a datum is marked as a null without spelling one. -/
def isFalseNull : Datum → Bool
  | .scalar s =>
      s.style = .plain && s.tag = some Scalar.nullTag && !Scalar.isNullText s.text
  | _ => false

mutual

/-- The datum with the type of every scalar settled, or nothing if some part
has no type of its own. -/
def typed? : Datum → Option Datum
  | .atom a => some (.atom a)
  | .scalar s => s.resolve.map Datum.atom
  | .list items => (typedItems? items).map Datum.list
  | .record entries => (typedEntries? entries).map Datum.record
  | .tagged _ => none

/-- Every item with its type settled. -/
def typedItems? : List Datum → Option (List Datum)
  | [] => some []
  | item :: rest => do
      let item ← typed? item
      let rest ← typedItems? rest
      return item :: rest

/-- Every entry with the types of its name and value settled. -/
def typedEntries? : List (Datum × Datum) → Option (List (Datum × Datum))
  | [] => some []
  | (name, d) :: rest => do
      let name ← typed? name
      let d ← typed? d
      let rest ← typedEntries? rest
      return (name, d) :: rest

end

/-- A typed scalar as a value.  A double that is not a number becomes null. -/
def ofAtom : Atom → Value
  | .null => .null
  | .bool b => .bool b
  | .int n => .int n
  | .double d => if d.isFinite then .double d else .null
  | .string s => .string s

mutual

/-- The value that a datum stands for. -/
def value? : Datum → Option Value
  | .atom a => some (ofAtom a)
  | .scalar s => s.resolve.map ofAtom
  | .list items => (valueItems? items).map Value.list
  | .record entries =>
      (valueEntries? entries).map fun entries => Value.object (Entries.ofList entries)
  | .tagged _ => none

/-- The values that the items stand for. -/
def valueItems? : List Datum → Option (List Value)
  | [] => some []
  | item :: rest => do
      let item ← value? item
      let rest ← valueItems? rest
      return item :: rest

/-- The entries read as named values, repeated names included. -/
def valueEntries? : List (Datum × Datum) → Option (List (String × Value))
  | [] => some []
  | (name, d) :: rest => do
      let name ← name.text?
      let value ← value? d
      let rest ← valueEntries? rest
      return (name, value) :: rest

end

end Datum

end ContentSchema
