import ContentSchema.Text.Cut
import ContentSchema.Value.Basic

/-!
# Display conditions

A condition names a field as `FIELD:<identifier>` or `FIELD:<identifier>:<tail>`
in any of its texts, however deeply nested.  Authored identifiers of the pass
are replaced by final ones; every other text, and the shape of the condition,
stays as it is.
-/

namespace ContentSchema
namespace Condition

/-- What marks a text that names a field. -/
def marker : String := "FIELD:"

/-- A text with the field that it names replaced, if it names one of `names`. -/
def renameText (names : Entries String) (text : String) : String :=
  match Text.dropBeginning marker.toList text.toList with
  | none => text
  | some rest =>
      match Text.cutChars ':' rest with
      | some (identifier, tail) =>
          match names.lookup (String.ofList identifier) with
          | some unique => marker ++ unique ++ ":" ++ String.ofList tail
          | none => text
      | none =>
          match names.lookup (String.ofList rest) with
          | some unique => marker ++ unique
          | none => text

mutual

/-- A condition with the fields that it names replaced. -/
def rename (names : Entries String) : Value → Value
  | .string text => .string (renameText names text)
  | .list items => .list (renameItems names items)
  | .object entries => .object (renameEntries names entries)
  | .null => .null
  | .bool b => .bool b
  | .int n => .int n
  | .double d => .double d

/-- A list of conditions with the fields that they name replaced. -/
def renameItems (names : Entries String) : List Value → List Value
  | [] => []
  | item :: rest => rename names item :: renameItems names rest

/-- Named conditions with the fields that they name replaced. -/
def renameEntries (names : Entries String) : List (String × Value) → List (String × Value)
  | [] => []
  | (key, value) :: rest => (key, rename names value) :: renameEntries names rest

end

end Condition
end ContentSchema
