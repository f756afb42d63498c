import ContentSchema.Datum.Scalar
import ContentSchema.Number.Shortest
import ContentSchema.Value.Basic
import ContentSchema.Yaml.Glyph

/-!
# Writing YAML

Containers are written as blocks, two spaces deeper than what holds them; only
a list below a key is not indented, and an empty container is a pair of
brackets.  A text is written plain if it would be read back as the same text,
as a literal block if it has several lines, and between quotation marks
otherwise.
-/

namespace ContentSchema
namespace Yaml

/-! ## The text under construction -/

/-- A text under construction. -/
structure Page where
  text : String := ""
  column : Nat := 0
  /-- Whether a mark may follow without a space. -/
  spaced : Bool := true
  /-- Whether the line holds nothing but indentation and the marks of items. -/
  fresh : Bool := true

namespace Page

/-- Write one character. -/
def put (page : Page) (c : Char) : Page :=
  { page with text := page.text.push c, column := page.column + 1 }

/-- Write characters. -/
def putAll (page : Page) (cs : List Char) : Page :=
  cs.foldl put page

/-- Write a line end. -/
def putBreak (page : Page) (c : Char) : Page :=
  { page with text := page.text.push c, column := 0 }

/-- Go to a column at the start of a line: the present one if it is fresh and
not past the column, the next one otherwise. -/
def startLine (page : Page) (indent : Nat) : Page :=
  let stay :=
    page.fresh && page.column ≤ indent && (page.column < indent || page.spaced)
  let page := if stay then page else page.putBreak '\n'
  let page := page.putAll (List.replicate (indent - page.column) ' ')
  { page with spaced := true, fresh := true }

/-- Write a mark that is part of the indentation. -/
def bullet (page : Page) (mark : Char) : Page :=
  let page := if page.spaced then page else page.put ' '
  { page.put mark with spaced := false }

/-- Write a mark after which something stands on the same line, set off by a
space from what is before it. -/
def start (page : Page) (mark : Char) : Page :=
  let page := if page.spaced then page else page.put ' '
  { page.put mark with spaced := false, fresh := false }

/-- Write a mark right after what is before it. -/
def finish (page : Page) (mark : Char) : Page :=
  { page.put mark with spaced := false, fresh := false }

end Page

/-! ## Texts -/

/-- How a text is written. -/
inductive Lettering where
  | plain
  | single
  | double
  | block
deriving DecidableEq, Repr

/-- Whether a character may stand for itself. -/
def isPrintable (c : Char) : Bool :=
  c = '\n' || (' ' ≤ c && c ≤ '~')
    || ('\u00a0' ≤ c && c ≤ '\ufffd' && c ≠ '\ufeff')

/-- Whether a word ends before this character, or at the end of the text. -/
def endsWordAt (c : Option Char) : Bool :=
  match c with
  | some c => endsWord c || c = '\r' || c = '\u0085'
  | none => true

/-- Whether some character and its successor satisfy a test. -/
def anyPair (test : Char → Option Char → Bool) : List Char → Bool
  | [] => false
  | c :: rest => test c rest.head? || anyPair test rest

/-- Words that other readers take for truth values. -/
def truthWords : List String :=
  ["y", "Y", "yes", "Yes", "YES", "n", "N", "no", "No", "NO", "true", "True", "TRUE",
    "false", "False", "FALSE", "on", "On", "ON", "off", "Off", "OFF"]

/-- Marks that no plain text may start with. -/
def leadingMarks : List Char :=
  ['#', ',', '[', ']', '\x7b', '\x7d', '&', '*', '!', '|', '>', '\x27', '"', '%', '@', '\x60']

/-- Whether a text would be taken for something else in a block. -/
def hasBlockMark (cs : List Char) : Bool :=
  (['-', '-', '-'].isPrefixOf cs || ['.', '.', '.'].isPrefixOf cs)
    || (match cs with
        | c :: rest =>
            leadingMarks.contains c || ((c = '?' || c = '-') && endsWordAt rest.head?)
        | [] => false)
    || anyPair (fun c next => c = ':' && endsWordAt next) cs
    || anyPair (fun c next => endsWordAt (some c) && next = some '#') cs

/-- Whether a line end follows a space. -/
def hasSpaceBeforeBreak (cs : List Char) : Bool :=
  anyPair (fun c next => c = ' ' && next.any isBreak) cs

/-- Whether a space follows a line end. -/
def hasSpaceAfterBreak (cs : List Char) : Bool :=
  anyPair (fun c next => isBreak c && next = some ' ') cs

/-- Whether all characters may stand for themselves. -/
def isClean (cs : List Char) : Bool :=
  cs.all isPrintable

/-- Whether a text may be written plain in a block. -/
def admitsPlain (cs : List Char) : Bool :=
  isClean cs && !cs.any isBreak && cs.head? ≠ some ' ' && cs.getLast? ≠ some ' '
    && !hasBlockMark cs

/-- Whether a text may be written between single quotation marks. -/
def admitsSingle (cs : List Char) : Bool :=
  isClean cs && !hasSpaceBeforeBreak cs && !hasSpaceAfterBreak cs

/-- Whether a text may be written as a block. -/
def admitsBlock (cs : List Char) : Bool :=
  isClean cs && !hasSpaceBeforeBreak cs && cs.getLast? ≠ some ' '

/-- Whether a plain text would be read back as a text. -/
def readsAsText (s : String) : Bool :=
  match Scalar.resolvePlain s with
  | some (.string _) => !Scalar.isPaddedNumeral s.toList
  | _ => false

/-- How a text is written as a value or an item. -/
def letteringOf (s : String) : Lettering :=
  let cs := s.toList
  let quoted := if admitsSingle cs then .single else .double
  if cs.contains '\n' then if admitsBlock cs then .block else .double
  else if truthWords.contains s || !readsAsText s || !admitsPlain cs then quoted
  else .plain

/-- Whether a text may stand before a colon without a mark of its own: it is not
long, and has no line end of any kind. -/
def isShortKey (s : String) : Bool :=
  s.utf8ByteSize ≤ 128 && !s.toList.any fun c => isBreak c || c = '\r' || c = '\u0085'

/-- A hexadecimal digit in upper case. -/
def hexDigit (n : Nat) : Char :=
  (Nat.digitChar n).toUpper

/-- A number in a fixed count of hexadecimal digits. -/
def hexDigits (n : Nat) : Nat → List Char
  | 0 => []
  | count + 1 => hexDigits (n / 16) count ++ [hexDigit (n % 16)]

/-- The escape of a character after the backslash. -/
def escape (c : Char) : List Char :=
  if c = '\x00' then ['0']
  else if c = '\x07' then ['a']
  else if c = '\x08' then ['b']
  else if c = '\t' then ['t']
  else if c = '\n' then ['n']
  else if c = '\x0b' then ['v']
  else if c = '\x0c' then ['f']
  else if c = '\r' then ['r']
  else if c = '\x1b' then ['e']
  else if c = '"' || c = '\\' then [c]
  else if c = '\u0085' then ['N']
  else if c = '\u2028' then ['L']
  else if c = '\u2029' then ['P']
  else if c.toNat ≤ 0xff then 'x' :: hexDigits c.toNat 2
  else if c.toNat ≤ 0xffff then 'u' :: hexDigits c.toNat 4
  else 'U' :: hexDigits c.toNat 8

/-- A character between double quotation marks. -/
def doubleQuotedChar (c : Char) : List Char :=
  if !isPrintable c || isBreak c || c = '"' || c = '\\' then '\\' :: escape c else [c]

namespace Page

/-- Write characters line by line, each line that is not empty at the given
column; `broken` says whether a line is about to start. -/
def putLines (indent : Nat) (letters : Char → List Char) (broken : Bool) (page : Page) :
    List Char → Page × Bool
  | [] => (page, broken)
  | c :: rest =>
      if isBreak c then
        putLines indent letters true { page.putBreak c with fresh := true } rest
      else
        let page := if broken then page.startLine indent else page
        putLines indent letters false { page.putAll (letters c) with fresh := false } rest

/-- Write a plain text. -/
def plain (page : Page) (cs : List Char) : Page :=
  let page := if page.spaced then page else page.put ' '
  { page.putAll cs with spaced := false, fresh := false }

/-- Write a text between single quotation marks. -/
def single (page : Page) (indent : Nat) (cs : List Char) : Page :=
  let doubled (c : Char) : List Char := if c = '\x27' then [c, c] else [c]
  let (page, broken) := putLines indent doubled false (page.start '\x27') cs
  let page := if broken then page.startLine indent else page
  page.finish '\x27'

/-- Write a text between double quotation marks. -/
def double (page : Page) (cs : List Char) : Page :=
  ((page.start '"').putAll (cs.flatMap doubleQuotedChar)).finish '"'

/-- The marks after the bar of a block: one if the first line does not show the
indentation, and one unless the text ends with a single line end. -/
def blockMarks (cs : List Char) : List Char :=
  let first := if cs.head?.any fun c => c = ' ' || isBreak c then ['2'] else []
  let last := match cs.reverse with
    | [] => ['-']
    | [c] => if isBreak c then ['+'] else ['-']
    | c :: before :: _ => if !isBreak c then ['-'] else if isBreak before then ['+'] else []
  first ++ last

/-- Write a text as a literal block. -/
def block (page : Page) (indent : Nat) (cs : List Char) : Page :=
  let page := ((page.start '|').putAll (blockMarks cs)).putBreak '\n'
  (putLines indent (fun c => [c]) true { page with spaced := true, fresh := true } cs).1

/-- Write a text whose further lines stand at the given column. -/
def string (page : Page) (indent : Nat) (s : String) : Page :=
  match letteringOf s with
  | .plain => page.plain s.toList
  | .single => page.single indent s.toList
  | .double => page.double s.toList
  | .block => page.block indent s.toList

/-- Write a key with its colon. -/
def key (page : Page) (indent : Nat) (name : String) : Page :=
  if isShortKey name then (page.string (indent + 2) name).finish ':'
  else (((page.bullet '?').string (indent + 2) name).startLine indent).bullet ':'

/-- The column of the entries of a container: two further than what holds it,
if anything does. -/
def deeper (outer : Option Nat) : Nat :=
  match outer with
  | some indent => indent + 2
  | none => 0

/-- The column of the items of a list: that of the key before it on the line,
if there is one. -/
def listIndent (page : Page) (outer : Option Nat) (underKey : Bool) : Nat :=
  match outer with
  | some indent => if underKey && !page.fresh then indent else indent + 2
  | none => 0

mutual

/-- Write a value that is held at the column `outer`, below a key or not. -/
def value (outer : Option Nat) (underKey : Bool) (page : Page) : Value → Page
  | .null => page.plain "null".toList
  | .bool b => page.plain (toString b).toList
  | .int n => page.plain (toString n).toList
  | .double d => page.plain (d.render .omitted).toList
  | .string s => page.string (outer.getD 0 + 2) s
  | .list [] => (page.start '[').finish ']'
  | .list (item :: rest) => items (page.listIndent outer underKey) page (item :: rest)
  | .object [] => (page.start '\x7b').finish '\x7d'
  | .object (entry :: rest) => entries (deeper outer) page (entry :: rest)

/-- Write items at the column `indent`. -/
def items (indent : Nat) (page : Page) : List Value → Page
  | [] => page
  | item :: rest =>
      items indent (value (some indent) false ((page.startLine indent).bullet '-') item) rest

/-- Write entries at the column `indent`. -/
def entries (indent : Nat) (page : Page) : List (String × Value) → Page
  | [] => page
  | (name, part) :: rest =>
      entries indent (value (some indent) true ((page.startLine indent).key indent name) part)
        rest

end

end Page

/-- The YAML text of a value. -/
def write (v : Value) : String :=
  ((Page.value none false {} v).startLine 0).text

end Yaml
end ContentSchema
