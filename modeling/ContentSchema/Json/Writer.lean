import ContentSchema.Number.Shortest
import ContentSchema.Value.Basic

/-!
# Writing JSON

Compact text has no spaces.  Indented text puts each item and entry on a line
of its own, two spaces deeper than its container, and writes empty containers
as a pair of brackets.  Strings escape the quote, the backslash and control
characters below the space; every other character stands for itself.
-/

namespace ContentSchema
namespace Json

/-- A hexadecimal digit in lower case. -/
def hexDigit (n : Nat) : Char :=
  Nat.digitChar n

/-- One character inside a quoted string. -/
def escapeChar (c : Char) : List Char :=
  if c = '"' then ['\\', '"']
  else if c = '\\' then ['\\', '\\']
  else if c = '\x08' then ['\\', 'b']
  else if c = '\x0c' then ['\\', 'f']
  else if c = '\n' then ['\\', 'n']
  else if c = '\r' then ['\\', 'r']
  else if c = '\t' then ['\\', 't']
  else if c.toNat < 0x20 then
    ['\\', 'u', '0', '0', hexDigit (c.toNat / 16), hexDigit (c.toNat % 16)]
  else [c]

/-- The quoted text of a string. -/
def quote (s : String) : String :=
  String.ofList ('"' :: s.toList.flatMap escapeChar ++ ['"'])

mutual

/-- The text of a value without spaces. -/
def compact : Value → String
  | .list items => "[" ++ compactItems items ++ "]"
  | .object entries => "\x7b" ++ compactEntries entries ++ "\x7d"
  | .null => "null"
  | .bool b => toString b
  | .int n => toString n
  | .double d => d.render .written
  | .string s => quote s

/-- Items separated by commas. -/
def compactItems : List Value → String
  | [] => ""
  | [item] => compact item
  | item :: rest => compact item ++ "," ++ compactItems rest

/-- Entries separated by commas. -/
def compactEntries : List (String × Value) → String
  | [] => ""
  | [(key, value)] => quote key ++ ":" ++ compact value
  | (key, value) :: rest => quote key ++ ":" ++ compact value ++ "," ++ compactEntries rest

end

/-- The start of a line at the given depth. -/
def lineStart (depth : Nat) : String :=
  String.ofList ('\n' :: List.replicate (2 * depth) ' ')

mutual

/-- The indented text of a value whose container stands at `depth`. -/
def indented (depth : Nat) : Value → String
  | .list [] => "[]"
  | .list items => "[" ++ indentedItems (depth + 1) items ++ lineStart depth ++ "]"
  | .object [] => "\x7b\x7d"
  | .object entries =>
      "\x7b" ++ indentedEntries (depth + 1) entries ++ lineStart depth ++ "\x7d"
  | .null => "null"
  | .bool b => toString b
  | .int n => toString n
  | .double d => d.render .written
  | .string s => quote s

/-- Items on lines of their own. -/
def indentedItems (depth : Nat) : List Value → String
  | [] => ""
  | [item] => lineStart depth ++ indented depth item
  | item :: rest => lineStart depth ++ indented depth item ++ "," ++ indentedItems depth rest

/-- Entries on lines of their own. -/
def indentedEntries (depth : Nat) : List (String × Value) → String
  | [] => ""
  | [(key, value)] => lineStart depth ++ quote key ++ ": " ++ indented depth value
  | (key, value) :: rest =>
      lineStart depth ++ quote key ++ ": " ++ indented depth value ++ ","
        ++ indentedEntries depth rest

end

/-- The indented text of a whole value. -/
def pretty (v : Value) : String :=
  indented 0 v

end Json
end ContentSchema
