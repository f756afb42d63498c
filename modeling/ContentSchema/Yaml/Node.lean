import ContentSchema.Entries
import ContentSchema.Yaml.Token

/-!
# Nodes

The tokens of a text make up one document, a tree of scalars, lists and records
in which a node may be named by an anchor and referred to by an alias.  Where a
key, a value or an item is left out, an empty plain scalar stands for it.
-/

namespace ContentSchema
namespace Yaml

/-- A node of a document.  A list or a record may carry a local tag. -/
inductive Node where
  | alias (name : String)
  | scalar (anchor : Option String) (scalar : Scalar)
  | list (anchor : Option String) (tagged : Bool) (items : List Node)
  | record (anchor : Option String) (tagged : Bool) (entries : List (Node × Node))
deriving Inhabited

namespace Node

/-- What stands for a node that is left out. -/
def absent : Node := .scalar none { text := "" }

/-- What is said about a node in front of it. -/
structure Properties where
  anchor : Option String := none
  tag : Option String := none

/-- The tag handles that need no directive. -/
def defaultHandles : Entries String :=
  [("!", "!"), ("!!", "tag:yaml.org,2002:")]

/-- The whole tag of a handle and a suffix. -/
def wholeTag? (handles : Entries String) (handle suffix : String) : Option String :=
  if handle.isEmpty then some suffix
  else (handles.lookup handle).map fun replacement => replacement ++ suffix

/-- The properties at the front, an anchor and a tag in either order. -/
def properties? (handles : Entries String) :
    List Token → Option (Properties × List Token)
  | .anchor name :: .tag handle suffix :: rest =>
      (wholeTag? handles handle suffix).map fun tag => (⟨some name, some tag⟩, rest)
  | .tag handle suffix :: .anchor name :: rest =>
      (wholeTag? handles handle suffix).map fun tag => (⟨some name, some tag⟩, rest)
  | .anchor name :: rest => some (⟨some name, none⟩, rest)
  | .tag handle suffix :: rest =>
      (wholeTag? handles handle suffix).map fun tag => (⟨none, some tag⟩, rest)
  | rest => some ({}, rest)

/-- Whether the tag of a collection is a local one. -/
def Properties.isTagged (properties : Properties) : Bool :=
  properties.tag.any fun tag => tag.startsWith "!"

/-- A scalar with its properties.  The tag that consists of its mark alone says
nothing of a scalar. -/
def ofScalar (properties : Properties) (text : String) (style : ScalarStyle) : Node :=
  .scalar properties.anchor
    { text, style, tag := properties.tag.filter fun tag => tag ≠ "!" }

/-- Whether a node of a block list or a record is left out before these tokens. -/
def leftOut (closing : List Token) (tokens : List Token) : Bool :=
  match tokens with
  | token :: _ => closing.contains token
  | [] => false

mutual

/-- One node, in a block or in a flow collection; a value of a block record may
be a list that is not indented. -/
def parse? (handles : Entries String) (fuel : Nat) (inBlock unindented : Bool)
    (tokens : List Token) : Option (Node × List Token) :=
  match fuel, tokens with
  | 0, _ => none
  | _ + 1, .alias name :: rest => some (.alias name, rest)
  | fuel + 1, tokens => do
      let (properties, rest) ← properties? handles tokens
      let anchor := properties.anchor
      match rest, inBlock with
      | .scalar text style :: rest, _ => return (ofScalar properties text style, rest)
      | .flowList :: rest, _ => do
          let (items, rest) ← flowItems? handles fuel true rest
          return (.list anchor properties.isTagged items, rest)
      | .flowRecord :: rest, _ => do
          let (entries, rest) ← flowEntries? handles fuel true rest
          return (.record anchor properties.isTagged entries, rest)
      | .blockList :: rest, true => do
          let (items, rest) ← blockItems? handles fuel rest
          return (.list anchor properties.isTagged items, rest)
      | .blockRecord :: rest, true => do
          let (entries, rest) ← blockEntries? handles fuel rest
          return (.record anchor properties.isTagged entries, rest)
      | rest, _ =>
          if unindented && rest.head? = some .blockEntry then
            let (items, rest) ← unindentedItems? handles fuel rest
            return (.list anchor properties.isTagged items, rest)
          else if anchor.isSome || properties.tag.isSome then
            return (ofScalar properties "" .plain, rest)
          else none

/-- The items of a block list up to its end. -/
def blockItems? (handles : Entries String) (fuel : Nat) (tokens : List Token) :
    Option (List Node × List Token) :=
  match fuel, tokens with
  | fuel + 1, .blockEntry :: rest => do
      let (item, rest) ←
        if leftOut [.blockEntry, .blockEnd] rest then some (absent, rest)
        else parse? handles fuel true false rest
      let (items, rest) ← blockItems? handles fuel rest
      return (item :: items, rest)
  | _, .blockEnd :: rest => some ([], rest)
  | _, _ => none

/-- The items of a list that is not indented, as far as they go. -/
def unindentedItems? (handles : Entries String) (fuel : Nat) (tokens : List Token) :
    Option (List Node × List Token) :=
  match fuel, tokens with
  | fuel + 1, .blockEntry :: rest => do
      let (item, rest) ←
        if leftOut [.blockEntry, .key, .value, .blockEnd] rest then some (absent, rest)
        else parse? handles fuel true false rest
      let (items, rest) ← unindentedItems? handles fuel rest
      return (item :: items, rest)
  | _, rest => some ([], rest)

/-- The entries of a block record up to its end. -/
def blockEntries? (handles : Entries String) (fuel : Nat) (tokens : List Token) :
    Option (List (Node × Node) × List Token) :=
  match fuel, tokens with
  | fuel + 1, .key :: rest => do
      let (name, rest) ← blockPart? handles fuel rest
      let (value, rest) ← blockValue? handles fuel rest
      let (entries, rest) ← blockEntries? handles fuel rest
      return ((name, value) :: entries, rest)
  | _, .blockEnd :: rest => some ([], rest)
  | _, _ => none

/-- The value of a block entry, which may be left out with its mark. -/
def blockValue? (handles : Entries String) (fuel : Nat) (tokens : List Token) :
    Option (Node × List Token) :=
  match fuel, tokens with
  | fuel + 1, .value :: rest => blockPart? handles fuel rest
  | _, rest => some (absent, rest)

/-- A name or a value of a block entry, which may be left out. -/
def blockPart? (handles : Entries String) (fuel : Nat) (tokens : List Token) :
    Option (Node × List Token) :=
  match fuel with
  | 0 => none
  | fuel + 1 =>
      if leftOut [.key, .value, .blockEnd] tokens then some (absent, tokens)
      else parse? handles fuel true true tokens

/-- The items of a flow list up to its end; a comma stands before each but the
first. -/
def flowItems? (handles : Entries String) (fuel : Nat) (first : Bool) (tokens : List Token) :
    Option (List Node × List Token) :=
  match fuel, tokens with
  | 0, _ => none
  | _ + 1, .flowListEnd :: rest => some ([], rest)
  | fuel + 1, tokens => do
      let rest ←
        if first then some tokens
        else if tokens.head? = some .flowEntry then some (tokens.drop 1)
        else none
      match rest with
      | .flowListEnd :: rest => return ([], rest)
      | .key :: rest => do
          let (entry, rest) ← flowPair? handles fuel rest
          let (items, rest) ← flowItems? handles fuel false rest
          return (.record none false [entry] :: items, rest)
      | rest => do
          let (item, rest) ← parse? handles fuel false false rest
          let (items, rest) ← flowItems? handles fuel false rest
          return (item :: items, rest)

/-- A single entry as an item of a flow list, whose key has been marked.  Where
the key is left out the next token goes with it. -/
def flowPair? (handles : Entries String) (fuel : Nat) (tokens : List Token) :
    Option ((Node × Node) × List Token) :=
  match fuel with
  | 0 => none
  | fuel + 1 => do
      let (name, rest) ←
        if leftOut [.value, .flowEntry, .flowListEnd] tokens then some (absent, tokens.drop 1)
        else parse? handles fuel false false tokens
      let (value, rest) ← flowValue? handles fuel [.flowEntry, .flowListEnd] rest
      return ((name, value), rest)

/-- The value of a flow entry, which may be left out with its mark. -/
def flowValue? (handles : Entries String) (fuel : Nat) (closing tokens : List Token) :
    Option (Node × List Token) :=
  match fuel, tokens with
  | fuel + 1, .value :: rest =>
      if leftOut closing rest then some (absent, rest)
      else parse? handles fuel false false rest
  | _, rest => some (absent, rest)

/-- The entries of a flow record up to its end; a comma stands before each but
the first. -/
def flowEntries? (handles : Entries String) (fuel : Nat) (first : Bool) (tokens : List Token) :
    Option (List (Node × Node) × List Token) :=
  match fuel, tokens with
  | 0, _ => none
  | _ + 1, .flowRecordEnd :: rest => some ([], rest)
  | fuel + 1, tokens => do
      let rest ←
        if first then some tokens
        else if tokens.head? = some .flowEntry then some (tokens.drop 1)
        else none
      match rest with
      | .flowRecordEnd :: rest => return ([], rest)
      | .key :: rest => do
          let (name, rest) ←
            if leftOut [.value, .flowEntry, .flowRecordEnd] rest then some (absent, rest)
            else parse? handles fuel false false rest
          let (value, rest) ← flowValue? handles fuel [.flowEntry, .flowRecordEnd] rest
          let (entries, rest) ← flowEntries? handles fuel false rest
          return ((name, value) :: entries, rest)
      | rest => do
          let (name, rest) ← parse? handles fuel false false rest
          let (entries, rest) ← flowEntries? handles fuel false rest
          return ((name, absent) :: entries, rest)

end

/-- The tag handles that the directives at the front declare, once each; the
version may be declared once and has to be one that is known. -/
def handles? (versioned : Bool) (declared : Entries String) :
    List Token → Option (Entries String × List Token)
  | .version major minor :: rest =>
      if versioned || major ≠ 1 || (minor ≠ 1 && minor ≠ 2) then none
      else handles? true declared rest
  | .tagPrefix handle replacement :: rest =>
      if (declared.lookup handle).isSome then none
      else handles? versioned ((handle, replacement) :: declared) rest
  | rest => some (declared ++ defaultHandles, rest)

/-- Whether nothing follows a document but marks of its end. -/
def isFinished (tokens : List Token) : Bool :=
  tokens.all fun token => token = .documentEnd

/-- The single document that tokens make up; no token at all is an empty one. -/
def ofTokens? (tokens : List Token) : Option Node := do
  let fuel := 4 * tokens.length + 4
  match tokens with
  | [] => return absent
  | .version _ _ :: _ | .tagPrefix _ _ :: _ | .documentStart :: _ => do
      let (handles, rest) ← handles? false [] tokens
      match rest with
      | .documentStart :: rest =>
          if isFinished rest then return absent
          else
            let (node, rest) ← parse? handles fuel true false rest
            if isFinished rest then return node else none
      | _ => none
  | tokens => do
      let (node, rest) ← parse? defaultHandles fuel true false tokens
      if isFinished rest then return node else none

end Node

end Yaml
end ContentSchema
