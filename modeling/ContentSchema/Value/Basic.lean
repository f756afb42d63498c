import ContentSchema.Entries
import ContentSchema.Number.Double

/-!
# Structured values

The free-form part of a document: configuration, display conditions, item
values.  Objects keep the order of their keys.  Integers are those that fit a
signed or an unsigned word of sixty-four bits; every other number is a finite
double.
-/

namespace ContentSchema

/-- A structured value. -/
inductive Value where
  | null
  | bool (b : Bool)
  | int (n : Int)
  | double (d : Double)
  | string (s : String)
  | list (items : List Value)
  | object (entries : List (String × Value))
deriving Inhabited, Repr

namespace Value

/-- The value under a key, if this is an object that has it. -/
def get? (v : Value) (key : String) : Option Value :=
  match v with
  | .object entries => entries.lookup key
  | _ => none

/-- The value at a path of keys. -/
def getPath? (v : Value) : List String → Option Value
  | [] => some v
  | key :: rest => (v.get? key).bind fun child => child.getPath? rest

/-- The value under a key of an object is found behind that key. -/
theorem getPath?_object {entries : List (String × Value)} {key : String} {value : Value}
    (hValue : entries.lookup key = some value) (rest : List String) :
    (object entries).getPath? (key :: rest) = value.getPath? rest := by
  show (entries.lookup key).bind (fun child => child.getPath? rest) = _
  rw [hValue]
  rfl

/-- Whether the value is an object. -/
def isObject : Value → Bool
  | .object _ => true
  | _ => false

mutual

/-- No object in the value repeats a key. -/
def WellFormed : Value → Prop
  | .list items => ItemsWellFormed items
  | .object entries => Entries.Distinct entries ∧ EntriesWellFormed entries
  | _ => True

/-- Every item of the list is well formed. -/
def ItemsWellFormed : List Value → Prop
  | [] => True
  | item :: rest => item.WellFormed ∧ ItemsWellFormed rest

/-- Every value of the entries is well formed. -/
def EntriesWellFormed : List (String × Value) → Prop
  | [] => True
  | (_, value) :: rest => value.WellFormed ∧ EntriesWellFormed rest

end

theorem itemsWellFormed_iff {items : List Value} :
    ItemsWellFormed items ↔ ∀ item ∈ items, item.WellFormed := by
  induction items with
  | nil => simp [ItemsWellFormed]
  | cons item rest ih => simp [ItemsWellFormed, ih]

theorem entriesWellFormed_iff {entries : List (String × Value)} :
    EntriesWellFormed entries ↔ ∀ entry ∈ entries, entry.2.WellFormed := by
  induction entries with
  | nil => simp [EntriesWellFormed]
  | cons entry rest ih => simp [EntriesWellFormed, ih]

mutual

/-- Structural equality of values, key order included. -/
def same : Value → Value → Bool
  | .null, .null => true
  | .bool a, .bool b => a == b
  | .int a, .int b => a == b
  | .double a, .double b => decide (a = b)
  | .string a, .string b => a == b
  | .list as, .list bs => sameItems as bs
  | .object as, .object bs => sameEntries as bs
  | _, _ => false

/-- Structural equality of lists of values. -/
def sameItems : List Value → List Value → Bool
  | [], [] => true
  | a :: as, b :: bs => a.same b && sameItems as bs
  | _, _ => false

/-- Structural equality of entries. -/
def sameEntries : List (String × Value) → List (String × Value) → Bool
  | [], [] => true
  | (j, a) :: as, (k, b) :: bs => j == k && a.same b && sameEntries as bs
  | _, _ => false

end

/-- An optional entry: present under `key` exactly when the value is. -/
def entry? (key : String) (value : Option Value) : List (String × Value) :=
  match value with
  | some v => [(key, v)]
  | none => []

/-- An optional text entry. -/
def textEntry? (key : String) (text : Option String) : List (String × Value) :=
  entry? key (text.map Value.string)

/-- An optional truth entry. -/
def boolEntry? (key : String) (flag : Option Bool) : List (String × Value) :=
  entry? key (flag.map Value.bool)

/-- An entry that is written only when it holds. -/
def flagEntry? (key : String) (flag : Bool) : List (String × Value) :=
  if flag then [(key, .bool true)] else []

/-- An entry that is written only when the list has an item. -/
def listEntry? (key : String) (items : List Value) : List (String × Value) :=
  if items.isEmpty then [] else [(key, .list items)]

/-- A list of texts. -/
def strings (texts : List String) : Value :=
  .list (texts.map Value.string)

end Value

end ContentSchema
