/-!
# Blank texts

A text is blank when it has no character other than white space, in the sense
of the Unicode property of that name.
-/

namespace ContentSchema
namespace Text

/-- Whether a character is white space. -/
def isSpace (c : Char) : Bool :=
  c = ' ' || ('\t' ≤ c && c ≤ '\r') || c = '\u0085' || c = '\u00a0' || c = '\u1680'
    || ('\u2000' ≤ c && c ≤ '\u200a') || c = '\u2028' || c = '\u2029' || c = '\u202f'
    || c = '\u205f' || c = '\u3000'

/-- Whether a text is empty or all white space. -/
def isBlank (s : String) : Bool :=
  s.toList.all isSpace

@[simp] theorem isBlank_empty : isBlank "" = true := rfl

end Text
end ContentSchema
