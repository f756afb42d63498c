import ContentSchema.Datum.Reading
import ContentSchema.Yaml.Node

/-!
# Reading YAML

The document of a text becomes data in which scalars are still untyped.  An
alias stands for the node that was last given its anchor; it may not stand
inside that node.  Collections nest to a limited depth, and following all
aliases may not take more than a hundred steps for every part of the document.
-/

namespace ContentSchema
namespace Yaml

/-- How many collections may stand inside each other. -/
def maxDepth : Nat := 128

/-- How often aliases may be followed for every part of a document. -/
def maxRepetition : Nat := 100

/-- Data with what it takes to go through all of it. -/
structure Measured where
  datum : Datum
  /-- The number of collections inside each other. -/
  depth : Nat := 0
  /-- The number of aliases to be followed. -/
  jumps : Nat := 0

/-- The nodes that have been given anchors, latest first: the name, and the data
once the node is complete. -/
abbrev Anchors := List (String × Option Measured)

/-- Give an anchor to a node that is not complete yet. -/
def openAnchor (anchor : Option String) (anchors : Anchors) : Anchors :=
  match anchor with
  | some name => (name, none) :: anchors
  | none => anchors

/-- Complete the node that was given an anchor when there were `before` anchors. -/
def closeAnchor (anchor : Option String) (before : Nat) (measured : Measured)
    (anchors : Anchors) : Anchors :=
  match anchor with
  | some name => anchors.set (anchors.length - 1 - before) (name, some measured)
  | none => anchors

mutual

/-- The data that a node stands for, given the anchors before it. -/
def measure? (anchors : Anchors) : Node → Option (Measured × Anchors)
  | .alias name =>
      match anchors.lookup name with
      | some (some measured) => some ({ measured with jumps := measured.jumps + 1 }, anchors)
      | _ => none
  | .scalar anchor scalar =>
      let measured : Measured := { datum := .scalar scalar }
      some (measured,
        closeAnchor anchor anchors.length measured (openAnchor anchor anchors))
  | .list anchor tagged items => do
      let (items, depth, jumps, reached) ← measureItems? (openAnchor anchor anchors) items
      let datum := Datum.list items
      let measured : Measured :=
        { datum := if tagged then .tagged datum else datum, depth := depth + 1, jumps }
      return (measured, closeAnchor anchor anchors.length measured reached)
  | .record anchor tagged entries => do
      let (entries, depth, jumps, reached) ←
        measureEntries? (openAnchor anchor anchors) entries
      let datum := Datum.record entries
      let measured : Measured :=
        { datum := if tagged then .tagged datum else datum, depth := depth + 1, jumps }
      return (measured, closeAnchor anchor anchors.length measured reached)

/-- The data of items, their greatest depth and all their aliases. -/
def measureItems? (anchors : Anchors) :
    List Node → Option (List Datum × Nat × Nat × Anchors)
  | [] => some ([], 0, 0, anchors)
  | item :: rest => do
      let (first, anchors) ← measure? anchors item
      let (items, depth, jumps, anchors) ← measureItems? anchors rest
      return (first.datum :: items, max first.depth depth, first.jumps + jumps, anchors)

/-- The data of entries, their greatest depth and all their aliases. -/
def measureEntries? (anchors : Anchors) :
    List (Node × Node) → Option (List (Datum × Datum) × Nat × Nat × Anchors)
  | [] => some ([], 0, 0, anchors)
  | (name, value) :: rest => do
      let (name, anchors) ← measure? anchors name
      let (value, anchors) ← measure? anchors value
      let (entries, depth, jumps, anchors) ← measureEntries? anchors rest
      return ((name.datum, value.datum) :: entries, max (max name.depth value.depth) depth,
        name.jumps + value.jumps + jumps, anchors)

end

mutual

/-- The number of parts of a node: one for a scalar or an alias, and a start and
an end for a collection. -/
def Node.parts : Node → Nat
  | .alias _ => 1
  | .scalar _ _ => 1
  | .list _ _ items => 2 + Node.itemParts items
  | .record _ _ entries => 2 + Node.entryParts entries

/-- The number of parts of items. -/
def Node.itemParts : List Node → Nat
  | [] => 0
  | item :: rest => item.parts + Node.itemParts rest

/-- The number of parts of entries. -/
def Node.entryParts : List (Node × Node) → Nat
  | [] => 0
  | (name, value) :: rest => name.parts + value.parts + Node.entryParts rest

end

/-- The data that a YAML text stands for. -/
def read? (s : String) : Option Datum := do
  let node ← Node.ofTokens? (← tokens? s)
  let (measured, _) ← measure? [] node
  if measured.depth ≤ maxDepth && measured.jumps ≤ maxRepetition * node.parts then
    return measured.datum
  else none

/-- Read what a YAML text stands for, or say why that is impossible. -/
def readAs {α : Type} (decode : Datum → Except DecodeError α) (s : String) :
    Except String α :=
  match read? s with
  | some d => (decode d).mapError DecodeError.message
  | none => .error "malformed document"

end Yaml
end ContentSchema
