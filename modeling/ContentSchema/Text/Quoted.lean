import ContentSchema.Text.Unprintable

/-!
# Quoted texts in messages

A text is shown between quotation marks with every character visible: the
quotation mark and the backslash are escaped, tabs and line ends have short
escapes, and every other character without a printed form is shown by its code
point.
-/

namespace ContentSchema
namespace Text

/-- One character between quotation marks. -/
def visibleChar (c : Char) : List Char :=
  if c = '"' then ['\\', '"']
  else if c = '\\' then ['\\', '\\']
  else if c = '\x00' then ['\\', '0']
  else if c = '\t' then ['\\', 't']
  else if c = '\n' then ['\\', 'n']
  else if c = '\r' then ['\\', 'r']
  else if isUnprintable c then
    ['\\', 'u', '\x7b'] ++ Nat.toDigits 16 c.toNat ++ ['\x7d']
  else [c]

/-- A text between quotation marks. -/
def visible (s : String) : String :=
  String.ofList ('"' :: s.toList.flatMap visibleChar ++ ['"'])

end Text
end ContentSchema
