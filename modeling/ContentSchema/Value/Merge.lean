import ContentSchema.Value.Basic

/-!
# Merging values

An overlay is laid over a base.  Two objects merge key by key: the keys of the
base keep their places and new keys of the overlay follow.  In every other
case the overlay replaces the base, lists and nulls included.
-/

namespace ContentSchema
namespace Value

mutual

/-- Lay `overlay` over `base`. -/
def merge (base overlay : Value) : Value :=
  match overlay with
  | .object additions =>
      match base with
      | .object entries => .object (mergeEntries entries additions)
      | _ => .object additions
  | other => other

/-- Lay each entry of the second argument over the entries of the first. -/
def mergeEntries (entries : List (String × Value)) :
    List (String × Value) → List (String × Value)
  | [] => entries
  | (key, value) :: rest =>
      mergeEntries
        (Entries.update key
          (fun present =>
            match present with
            | some existing => merge existing value
            | none => value)
          entries)
        rest

end

end Value
end ContentSchema
