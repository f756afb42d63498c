import ContentSchema.Datum.Scalar
import ContentSchema.Yaml.Glyph

/-!
# Texts of scalars

Plain and quoted scalars may run over several lines: a single line end between
words becomes a space, and of several line ends the first is dropped.  A block
scalar keeps its line ends, or folds them the same way between lines that are
not indented further; what ends it is governed by its chomping mark.

Texts under construction are kept in reverse.
-/

namespace ContentSchema
namespace Yaml

/-- White space between words. -/
structure Gap where
  /-- Blanks before the first line end, in reverse. -/
  blanks : List Char := []
  /-- Whether a line end was met. -/
  broken : Bool := false
  /-- The first line end, unless it was escaped. -/
  first : List Char := []
  /-- The other line ends, in reverse. -/
  more : List Char := []

namespace Gap

/-- Whether there is no white space. -/
def isEmpty (gap : Gap) : Bool :=
  gap.blanks.isEmpty && !gap.broken

/-- Add a blank; blanks after a line end do not count. -/
def addBlank (gap : Gap) (c : Char) : Gap :=
  if gap.broken then gap else { gap with blanks := c :: gap.blanks }

/-- Add a line end, which makes the blanks before it not count. -/
def addBreak (gap : Gap) (c : Char) : Gap :=
  if gap.broken then { gap with more := c :: gap.more }
  else { broken := true, first := [c] }

/-- The white space after an escaped line end. -/
def escaped : Gap := { broken := true }

/-- The text that the white space stands for. -/
def text (gap : Gap) : List Char :=
  if !gap.broken then gap.blanks.reverse
  else if gap.first = ['\n'] then
    if gap.more.isEmpty then [' '] else gap.more.reverse
  else gap.first ++ gap.more.reverse

/-- A reversed text followed by the white space. -/
def after (gap : Gap) (text : List Char) : List Char :=
  gap.text.reverse ++ text

end Gap

/-! ## Quoted scalars -/

/-- The quotation mark of single quoted scalars. -/
def singleQuote : Char := '\x27'

/-- The rest of a single quoted scalar and what follows it. -/
def singleQuoted? (text : List Char) (gap : Gap) : List Glyph → Option (String × List Glyph)
  | [] => none
  | glyph :: rest =>
      if isBlank glyph.char then singleQuoted? text (gap.addBlank glyph.char) rest
      else if isBreak glyph.char then singleQuoted? text (gap.addBreak glyph.char) rest
      else if glyph.char = endMark || startsWithDocumentMark (glyph :: rest) then none
      else if glyph.char = singleQuote then
        match rest with
        | [] => none
        | next :: rest' =>
            if next.char = singleQuote then
              singleQuoted? (singleQuote :: gap.after text) {} rest'
            else some (String.ofList (gap.after text).reverse, next :: rest')
      else singleQuoted? (glyph.char :: gap.after text) {} rest

/-- Where a double quoted scalar stands. -/
inductive QuoteMode where
  | text
  /-- A backslash has been read. -/
  | escape
  /-- Hexadecimal digits are still to come. -/
  | digits (left value : Nat)

/-- The character of an escape of one letter. -/
def escapedChar? (c : Char) : Option Char :=
  if c = '0' then some '\x00'
  else if c = 'a' then some '\x07'
  else if c = 'b' then some '\x08'
  else if c = 't' || c = '\t' then some '\t'
  else if c = 'n' then some '\n'
  else if c = 'v' then some '\x0b'
  else if c = 'f' then some '\x0c'
  else if c = 'r' then some '\r'
  else if c = 'e' then some '\x1b'
  else if c = ' ' then some ' '
  else if c = '"' then some '"'
  else if c = '/' then some '/'
  else if c = '\\' then some '\\'
  else if c = 'N' then some '\u0085'
  else if c = '_' then some '\u00a0'
  else if c = 'L' then some '\u2028'
  else if c = 'P' then some '\u2029'
  else none

/-- The number of digits after the letter of a numeric escape. -/
def escapeDigits? (c : Char) : Option Nat :=
  if c = 'x' then some 2
  else if c = 'u' then some 4
  else if c = 'U' then some 8
  else none

/-- The character of a code point. -/
def codePoint? (n : Nat) : Option Char :=
  if n.isValidChar then some (Char.ofNat n) else none

/-- The rest of a double quoted scalar and what follows it. -/
def doubleQuoted? (text : List Char) (gap : Gap) :
    QuoteMode → List Glyph → Option (String × List Glyph)
  | _, [] => none
  | .text, glyph :: rest =>
      if isBlank glyph.char then doubleQuoted? text (gap.addBlank glyph.char) .text rest
      else if isBreak glyph.char then doubleQuoted? text (gap.addBreak glyph.char) .text rest
      else if glyph.char = endMark || startsWithDocumentMark (glyph :: rest) then none
      else if glyph.char = '"' then some (String.ofList (gap.after text).reverse, rest)
      else if glyph.char = '\\' then doubleQuoted? (gap.after text) {} .escape rest
      else doubleQuoted? (glyph.char :: gap.after text) {} .text rest
  | .escape, glyph :: rest =>
      if isBreak glyph.char then doubleQuoted? text .escaped .text rest
      else match escapedChar? glyph.char with
        | some c => doubleQuoted? (c :: text) {} .text rest
        | none =>
            match escapeDigits? glyph.char with
            | some count => doubleQuoted? text {} (.digits count 0) rest
            | none => none
  | .digits left value, glyph :: rest =>
      match Scalar.digit? 16 glyph.char with
      | none => none
      | some digit =>
          let value := value * 16 + digit
          if left ≤ 1 then
            match codePoint? value with
            | some c => doubleQuoted? (c :: text) {} .text rest
            | none => none
          else doubleQuoted? text {} (.digits (left - 1) value) rest

/-! ## Plain scalars -/

/-- The punctuation of flow collections. -/
def isFlowPunctuation (c : Char) : Bool :=
  c = ',' || c = '[' || c = ']' || c = '\x7b' || c = '\x7d'

/-- The rest of a plain scalar: its text, whether a line end follows it, and
what follows the white space after it. -/
def plain? (inFlow : Bool) (indent : Int) (text : List Char) (gap : Gap) :
    List Glyph → Option (String × Bool × List Glyph)
  | [] => none
  | glyph :: rest =>
      let c := glyph.char
      if isBlank c then
        if gap.broken && (glyph.column : Int) < indent && c = '\t' then none
        else plain? inFlow indent text (gap.addBlank c) rest
      else if isBreak c then plain? inFlow indent text (gap.addBreak c) rest
      else
        let done := some (String.ofList text.reverse, gap.broken, glyph :: rest)
        let next := charAt 0 rest
        if c = endMark then done
        else if !gap.isEmpty
            && ((!inFlow && (glyph.column : Int) < indent) || c = '#'
              || startsWithDocumentMark (glyph :: rest)) then done
        else if inFlow && c = ':' && (isFlowPunctuation next || next = '?') then none
        else if (c = ':' && endsWord next) || (inFlow && isFlowPunctuation c) then done
        else plain? inFlow indent (c :: gap.after text) {} rest

/-! ## Block scalars -/

/-- What happens to the line ends at the end of a block scalar. -/
inductive Chomping where
  /-- All are dropped. -/
  | strip
  /-- One is kept. -/
  | clip
  /-- All are kept. -/
  | keep
deriving DecidableEq, Repr

/-- The chomping mark at the front, if there is one. -/
def chomping (glyphs : List Glyph) : Option Chomping × List Glyph :=
  if charAt 0 glyphs = '+' then (some .keep, glyphs.drop 1)
  else if charAt 0 glyphs = '-' then (some .strip, glyphs.drop 1)
  else (none, glyphs)

/-- The indentation mark at the front: zero if there is none, and nothing if it
is written as zero. -/
def indentation? (glyphs : List Glyph) : Option (Nat × List Glyph) :=
  let c := charAt 0 glyphs
  if c.isDigit then
    if c = '0' then none else some (c.toNat - '0'.toNat, glyphs.drop 1)
  else some (0, glyphs)

/-- The marks of a block scalar, in either order, and the lines that follow. -/
def blockHeader? (glyphs : List Glyph) : Option (Chomping × Nat × List Glyph) := do
  let (before, rest) := chomping glyphs
  let (increment, rest) ← indentation? rest
  let (after, rest) :=
    if before.isNone && increment ≠ 0 then chomping rest else (none, rest)
  let rest ← skipLineRest? rest
  return ((before <|> after).getD .clip, increment, rest)

/-- Pass over indentation and empty lines: the deepest column reached, the line
ends in reverse, and the rest.  An indentation of zero is not known yet. -/
def blockBreaks? (indent deepest : Nat) (breaks : List Char) :
    List Glyph → Option (Nat × List Char × List Glyph)
  | [] => none
  | glyph :: rest =>
      let inside := indent = 0 || glyph.column < indent
      if inside && glyph.char = ' ' then blockBreaks? indent deepest breaks rest
      else if inside && glyph.char = '\t' then none
      else
        let deepest := max deepest glyph.column
        if isBreak glyph.char then blockBreaks? indent deepest (glyph.char :: breaks) rest
        else some (deepest, breaks, glyph :: rest)

/-- A block scalar under construction. -/
structure Block where
  /-- The lines so far, in reverse. -/
  text : List Char := []
  /-- The line end of the last line. -/
  lineBreak : List Char := []
  /-- The empty lines after it, in reverse. -/
  breaks : List Char := []
  /-- Whether the last line starts with a blank. -/
  blank : Bool := false

/-- The reversed text before another line, which starts with a blank or not. -/
def Block.before (block : Block) (folded blank : Bool) : List Char :=
  let joint :=
    if folded && block.lineBreak = ['\n'] && !block.blank && !blank then
      if block.breaks.isEmpty then [' '] else []
    else block.lineBreak
  block.breaks ++ joint ++ block.text

/-- The text once no line follows. -/
def Block.finish (block : Block) (chomping : Chomping) : String :=
  let tail := match chomping with
    | .strip => []
    | .clip => block.lineBreak
    | .keep => block.breaks ++ block.lineBreak
  String.ofList (tail ++ block.text).reverse

/-- The lines of a block scalar at the given indentation. -/
def blockLines? (folded : Bool) (indent : Nat) (block : Block) (glyphs : List Glyph) :
    Option (Block × List Glyph) :=
  if columnOf glyphs = indent && charAt 0 glyphs ≠ endMark then
    let blank := isBlank (charAt 0 glyphs)
    let (line, rest) := spanChars (fun c => !endsLine c) glyphs
    let lineBreak := if isBreak (charAt 0 rest) then [charAt 0 rest] else []
    match blockBreaks? indent 0 [] (rest.drop lineBreak.length) with
    | none => none
    | some (_, breaks, rest) =>
        let next : Block :=
          { text := line.reverse ++ block.before folded blank, lineBreak, breaks, blank }
        if rest.length < glyphs.length then blockLines? folded indent next rest else none
  else some (block, glyphs)
termination_by glyphs.length

/-- The rest of a block scalar inside something indented by `parent`, and what
follows it. -/
def block? (folded : Bool) (parent : Int) (glyphs : List Glyph) :
    Option (String × List Glyph) := do
  let (chomping, increment, rest) ← blockHeader? glyphs
  let fixed : Nat := if increment = 0 then 0 else (max parent 0).toNat + increment
  let (deepest, breaks, rest) ← blockBreaks? fixed 0 [] rest
  let indent := if fixed = 0 then max (max deepest (parent + 1).toNat) 1 else fixed
  let (block, rest) ← blockLines? folded indent { breaks } rest
  return (block.finish chomping, rest)

end Yaml
end ContentSchema
