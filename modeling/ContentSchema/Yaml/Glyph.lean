/-!
# Characters in place

A YAML text is read as a list of glyphs: characters that know their line, their
column and their place in the text.  Line ends are normalized first, and a
single end mark closes the list.
-/

namespace ContentSchema
namespace Yaml

/-- A character in its place. -/
structure Glyph where
  char : Char
  line : Nat
  column : Nat
  index : Nat
deriving Repr

/-- The character that stands for the end of the text. -/
def endMark : Char := '\x00'

/-- A line end. -/
def isBreak (c : Char) : Bool :=
  c = '\n' || c = '\u2028' || c = '\u2029'

/-- A space or a tab. -/
def isBlank (c : Char) : Bool :=
  c = ' ' || c = '\t'

/-- A line end or the end of the text. -/
def endsLine (c : Char) : Bool :=
  isBreak c || c = endMark

/-- A blank, a line end or the end of the text. -/
def endsWord (c : Char) : Bool :=
  isBlank c || endsLine c

/-- A character of names of anchors, tags and directives. -/
def isWord (c : Char) : Bool :=
  c.isAlphanum || c = '_' || c = '-'

/-- Whether a text may contain a character. -/
def isAllowed (c : Char) : Bool :=
  c = '\t' || c = '\n' || c = '\r' || (' ' ≤ c && c ≤ '~') || c = '\u0085'
    || ('\u00a0' ≤ c && c ≤ '\ufffd') || 0x10000 ≤ c.toNat

/-- A text with each of its line ends written as one character. -/
def normalizeBreaks : List Char → List Char
  | [] => []
  | '\r' :: '\n' :: rest => '\n' :: normalizeBreaks rest
  | c :: rest => (if c = '\r' ∨ c = '\u0085' then '\n' else c) :: normalizeBreaks rest

/-- Characters in place, from the given place on, closed by the end mark. -/
def place (line column index : Nat) : List Char → List Glyph
  | [] => [⟨endMark, line, column, index⟩]
  | c :: rest =>
      ⟨c, line, column, index⟩ ::
        (if isBreak c then place (line + 1) 0 (index + 1) rest
         else place line (column + 1) (index + 1) rest)

/-- The glyphs of a text, unless it has a character that is not allowed. -/
def glyphs? (s : String) : Option (List Glyph) :=
  if s.toList.all isAllowed then some (place 0 0 0 (normalizeBreaks s.toList)) else none

/-- The character some places ahead. -/
def charAt (n : Nat) (glyphs : List Glyph) : Char :=
  match glyphs[n]? with
  | some glyph => glyph.char
  | none => endMark

/-- The column of the next character. -/
def columnOf (glyphs : List Glyph) : Nat :=
  match glyphs with
  | glyph :: _ => glyph.column
  | [] => 0

/-- Whether a line starts here with three equal marks that stand alone. -/
def startsWithMarks (mark : Char) (glyphs : List Glyph) : Bool :=
  columnOf glyphs = 0 && charAt 0 glyphs = mark && charAt 1 glyphs = mark
    && charAt 2 glyphs = mark && endsWord (charAt 3 glyphs)

/-- Whether a document starts or ends here. -/
def startsWithDocumentMark (glyphs : List Glyph) : Bool :=
  startsWithMarks '-' glyphs || startsWithMarks '.' glyphs

/-- The characters at the front that satisfy a test, and the rest. -/
def spanChars (test : Char → Bool) (glyphs : List Glyph) : List Char × List Glyph :=
  let taken := glyphs.takeWhile fun glyph => test glyph.char
  (taken.map Glyph.char, glyphs.drop taken.length)

/-- What follows the blanks at the front. -/
def skipBlanks (glyphs : List Glyph) : List Glyph :=
  (spanChars isBlank glyphs).2

/-- What follows the blanks and the comment at the front, if the line ends
there. -/
def skipLineRest? (glyphs : List Glyph) : Option (List Glyph) :=
  let rest := skipBlanks glyphs
  let rest :=
    if charAt 0 rest = '#' then (spanChars (fun c => !endsLine c) rest).2 else rest
  if isBreak (charAt 0 rest) then some (rest.drop 1)
  else if charAt 0 rest = endMark then some rest
  else none

end Yaml
end ContentSchema
