import ContentSchema.Datum.Basic
import ContentSchema.Number.Shortest
import ContentSchema.Text.Quoted

/-!
# Reading data into fields

Readers that ask a datum for one particular thing and say what was wrong when
it is not there.  A record of known fields may also be written as the list of
its fields in order; a list may leave out only fields at the end that have a
default of their own.
-/

namespace ContentSchema

/-- Why a datum could not be read. -/
inductive DecodeError where
  /-- A required field is absent. -/
  | missing (field : String)
  /-- A known field is written twice. -/
  | repeated (field : String)
  /-- Something else was found than was expected. -/
  | unexpected (found expected : String)
  /-- No alternative of a choice fits. -/
  | noAlternative (choice : String)
  /-- A word outside a closed set of words. -/
  | unknownWord (word : String)
deriving DecidableEq, Repr

/-- The wording of a decoding error. -/
def DecodeError.message : DecodeError → String
  | .missing field => "missing field `" ++ field ++ "`"
  | .repeated field => "duplicate field `" ++ field ++ "`"
  | .unexpected found expected => "invalid type: " ++ found ++ ", expected " ++ expected
  | .noAlternative choice => "data did not match any variant of untagged enum " ++ choice
  | .unknownWord word => "unknown variant `" ++ word ++ "`"

namespace Datum

/-- What kind of datum was found, as messages name it. -/
def describe : Datum → String
  | .atom .null => "null"
  | .atom (.bool b) => "boolean `" ++ toString b ++ "`"
  | .atom (.int n) => "integer `" ++ toString n ++ "`"
  | .atom (.double d) => "floating point `" ++ d.render .written ++ "`"
  | .atom (.string s) => "string " ++ Text.visible s
  | .scalar s => "string " ++ Text.visible s.text
  | .list _ => "sequence"
  | .record _ => "map"
  | .tagged _ => "enum"

/-- Turn a partial reading into a reader that names what it expected. -/
def expect {α : Type} (expected : String) (read? : Datum → Option α) (d : Datum) :
    Except DecodeError α :=
  match read? d with
  | some a => .ok a
  | none => .error (.unexpected d.describe expected)

/-- Read a text. -/
def text (d : Datum) : Except DecodeError String :=
  expect "a string" text? d

/-- Read a truth value. -/
def bool (d : Datum) : Except DecodeError Bool :=
  expect "a boolean" bool? d

/-- Read an integer of thirty-two bits. -/
def int32 (d : Datum) : Except DecodeError Int :=
  expect "i32" (fun d => (int? d).filter fun n => -0x80000000 ≤ n && n < 0x80000000) d

/-- Read the items of a list. -/
def items (d : Datum) : Except DecodeError (List Datum) :=
  expect "a sequence" items? d

/-- Read the entries of a record. -/
def entries (d : Datum) : Except DecodeError (List (Datum × Datum)) :=
  expect "a map" entries? d

/-- Read a free-form value. -/
def value (d : Datum) : Except DecodeError Value :=
  expect "any valid JSON value" value? d

/-- Read a free-form value whose parts, names included, settle their types
before it is read. -/
def settled (d : Datum) : Except DecodeError Value :=
  expect "any valid JSON value" (fun d => (typed? d).bind value?) d

/-- Read something that may be absent. -/
def optional {α : Type} (read : Datum → Except DecodeError α) (d : Datum) :
    Except DecodeError (Option α) :=
  if d.isNull then .ok none
  else if d.isFalseNull then .error (.unexpected d.describe "null")
  else (read d).map some

/-- Read a list whose items are read alike. -/
def listOf {α : Type} (read : Datum → Except DecodeError α) (d : Datum) :
    Except DecodeError (List α) := do
  (← d.items).mapM read

/-- Read a record whose values are read alike; a repeated name keeps its first
place and its last value. -/
def mapOf {α : Type} (read : Datum → Except DecodeError α) (d : Datum) :
    Except DecodeError (Entries α) := do
  let pairs ← (← d.entries).mapM fun (name, part) => do
    return (← name.text, ← read part)
  return Entries.ofList pairs

/-- The word of a closed choice: a text, a local tag over nothing, or a record
that maps the word to null. -/
def word (d : Datum) : Except DecodeError String :=
  match d with
  | .atom (.string s) => .ok s
  | .scalar s =>
      match s.tag with
      | some tag =>
          if tag.startsWith "!" then
            if s.style = .plain && (s.text.isEmpty || Scalar.isNullText s.text) then
              .ok (String.ofList (tag.toList.drop 1))
            else .error (.unexpected d.describe "unit")
          else .ok s.text
      | none => .ok s.text
  | .record [(.atom (.string name), .atom .null)] => .ok name
  | d => .error (.unexpected d.describe "string or map")

/-- Read one of a closed set of things by its word. -/
def oneOf {α : Type} (spelling : α → String) (all : List α) (d : Datum) :
    Except DecodeError α := do
  let word ← d.word
  match all.find? fun a => spelling a = word with
  | some a => .ok a
  | none => .error (.unknownWord word)

/-- The known fields of a record that were found, and whether they were written
as a list. -/
structure Slots where
  found : List (String × Datum)
  positional : Bool := false

/-- The name of an entry among known fields; a typed whole number stands for the
field at that place. -/
def entryName (known : List String) : Datum → Except DecodeError String
  | .atom (.int n) =>
      if 0 ≤ n then .ok ((known[n.toNat]?).getD "")
      else .error (.unexpected (describe (.atom (.int n))) "field identifier")
  | d => d.text

/-- Split named entries into known fields, none of which may repeat, and the
others in order. -/
def splitKnown (known : List String) :
    List (Datum × Datum) →
      Except DecodeError (List (String × Datum) × List (String × Datum))
  | [] => .ok ([], [])
  | (name, d) :: rest => do
      let name ← entryName known name
      let (found, others) ← splitKnown known rest
      if known.contains name then
        if (found.lookup name).isSome then .error (.repeated name)
        else .ok ((name, d) :: found, others)
      else .ok (found, (name, d) :: others)

/-- The fields of a record that may be written as a list. -/
def slots (fields : List String) : Datum → Except DecodeError Slots
  | .list items =>
      if fields.length < items.length then .error (.unexpected "sequence" "fewer elements")
      else .ok ⟨fields.zip items, true⟩
  | .tagged d => slots fields d
  | d => do
      let (found, _) ← splitKnown fields (← d.entries)
      return ⟨found, false⟩

/-- Read a field that has to be there. -/
def Slots.required {α : Type} (slots : Slots) (field : String)
    (read : Datum → Except DecodeError α) : Except DecodeError α :=
  match slots.found.lookup field with
  | some d => read d
  | none => .error (.missing field)

/-- Read a field that has a default. -/
def Slots.withDefault {α : Type} (slots : Slots) (field : String) (default : α)
    (read : Datum → Except DecodeError α) : Except DecodeError α :=
  match slots.found.lookup field with
  | some d => read d
  | none => .ok default

/-- Read a field that may be null or absent. -/
def Slots.optional {α : Type} (slots : Slots) (field : String)
    (read : Datum → Except DecodeError α) : Except DecodeError (Option α) :=
  slots.withDefault field none (Datum.optional read)

/-- Read a field that may be null, and absent only from a record that names its
fields. -/
def Slots.nullable {α : Type} (slots : Slots) (field : String)
    (read : Datum → Except DecodeError α) : Except DecodeError (Option α) :=
  if slots.positional then slots.required field (Datum.optional read)
  else slots.optional field read

end Datum

end ContentSchema
