import ContentSchema.Yaml.Scalar

/-!
# Tokens

A text is cut into tokens.  Outside of flow collections the indentation of a
line opens and closes collections, and what comes before a colon is a key of a
record although it is read before the colon is seen.  Tokens are therefore only
appended while the text is read; where a key turns out to stand, its token is
noted and put in at the end.

A key of this kind fits one line and 1024 characters.
-/

namespace ContentSchema
namespace Yaml

/-- A token of the notation. -/
inductive Token where
  | version (major minor : Nat)
  | tagPrefix (handle replacement : String)
  | documentStart
  | documentEnd
  | blockList
  | blockRecord
  | blockEnd
  | flowList
  | flowListEnd
  | flowRecord
  | flowRecordEnd
  | blockEntry
  | flowEntry
  | key
  | value
  | alias (name : String)
  | anchor (name : String)
  | tag (handle suffix : String)
  | scalar (text : String) (style : ScalarStyle)
deriving DecidableEq, Repr

/-! ## Names -/

/-- The name of an anchor and what follows it. -/
def anchorName? (glyphs : List Glyph) : Option (String × List Glyph) :=
  let (name, rest) := spanChars isWord glyphs
  let next := charAt 0 rest
  if name.isEmpty then none
  else if endsWord next || ['?', ':', ',', ']', '\x7d', '%', '@', '\x60'].contains next then
    some (String.ofList name, rest)
  else none

/-- The handle of a tag and what follows it: a name between exclamation marks,
or a first mark with what may belong to the rest of the tag. -/
def tagHandle? (glyphs : List Glyph) : Option (List Char × List Glyph) :=
  if charAt 0 glyphs = '!' then
    let (name, rest) := spanChars isWord (glyphs.drop 1)
    if charAt 0 rest = '!' then some ('!' :: name ++ ['!'], rest.drop 1)
    else some ('!' :: name, rest)
  else none

/-- Whether a character may stand in a tag; a tag between angle brackets may
also hold flow punctuation. -/
def isTagChar (bracketed : Bool) (c : Char) : Bool :=
  isWord c || [';', '/', '?', ':', '@', '&', '=', '+', '$', '.', '!', '~', '*', '\x27', '(', ')'].contains c
    || (bracketed && (c = ',' || c = '[' || c = ']'))

/-- The octets written as a percent sign and two digits, a given number of them. -/
def octets? : Nat → List Glyph → Option (List Nat × List Glyph)
  | 0, glyphs => some ([], glyphs)
  | n + 1, glyphs => do
      if charAt 0 glyphs ≠ '%' then none
      else
        let high ← Scalar.digit? 16 (charAt 1 glyphs)
        let low ← Scalar.digit? 16 (charAt 2 glyphs)
        let (octets, rest) ← octets? n (glyphs.drop 3)
        return ((high * 16 + low) :: octets, rest)

/-- The character written as percent signs with the digits of its octets. -/
def escapedTagChar? (glyphs : List Glyph) : Option (Char × List Glyph) := do
  let (first, _) ← octets? 1 glyphs
  let lead := first.headD 0
  let width :=
    if lead < 0x80 then 1
    else if lead / 0x20 = 6 then 2
    else if lead / 0x10 = 0xe then 3
    else if lead / 8 = 0x1e then 4
    else 0
  if width = 0 then none
  else
    let (octets, rest) ← octets? width glyphs
    if (octets.drop 1).any fun octet => octet / 0x40 ≠ 2 then none
    else
      let start := if width = 1 then lead else lead % Nat.pow 2 (7 - width)
      let value := (octets.drop 1).foldl (fun acc octet => acc * 0x40 + octet % 0x40) start
      return (← codePoint? value, rest)

/-- The characters of a tag, in reverse, and what follows them. -/
def tagChars? (bracketed : Bool) (text : List Char) (glyphs : List Glyph) :
    Option (List Char × List Glyph) :=
  match glyphs with
  | [] => none
  | glyph :: rest =>
      if glyph.char = '%' then
        match escapedTagChar? (glyph :: rest) with
        | none => none
        | some (c, rest') =>
            if rest'.length < (glyph :: rest).length then tagChars? bracketed (c :: text) rest'
            else none
      else if isTagChar bracketed glyph.char then
        tagChars? bracketed (glyph.char :: text) rest
      else some (text, glyph :: rest)
termination_by glyphs.length
decreasing_by
  · assumption
  · simp

/-- A tag and what follows it. -/
def tag? (inFlow : Bool) (glyphs : List Glyph) : Option (Token × List Glyph) := do
  let (handle, suffix, rest) ← scanned
  if endsWord (charAt 0 rest) || (inFlow && charAt 0 rest = ',') then
    return (.tag (String.ofList handle) (String.ofList suffix), rest)
  else none
where
  /-- Handle and suffix of the tag. -/
  scanned : Option (List Char × List Char × List Glyph) := do
    if charAt 1 glyphs = '<' then
      let (text, rest) ← tagChars? true [] (glyphs.drop 2)
      if text.isEmpty || charAt 0 rest ≠ '>' then none
      else return ([], text.reverse, rest.drop 1)
    else
      let (handle, rest) ← tagHandle? glyphs
      if 1 < handle.length && handle.getLast? = some '!' then
        let (text, rest) ← tagChars? false [] rest
        if text.isEmpty then none else return (handle, text.reverse, rest)
      else
        let (text, rest) ← tagChars? false (handle.drop 1).reverse rest
        if text.isEmpty then return ([], ['!'], rest) else return (['!'], text.reverse, rest)

/-! ## Directives -/

/-- A number of at most nine digits and what follows it. -/
def versionNumber? (glyphs : List Glyph) : Option (Nat × List Glyph) :=
  let (digits, rest) := spanChars Char.isDigit glyphs
  if digits.length ≤ 9 then (Scalar.digits? 10 digits).map fun n => (n, rest) else none

/-- A directive and what follows its line. -/
def directive? (glyphs : List Glyph) : Option (Token × List Glyph) := do
  let (name, rest) := spanChars isWord (glyphs.drop 1)
  if !endsWord (charAt 0 rest) then none
  else if name = "YAML".toList then
    let (major, rest) ← versionNumber? (skipBlanks rest)
    if charAt 0 rest ≠ '.' then none
    else
      let (minor, rest) ← versionNumber? (rest.drop 1)
      return (.version major minor, ← skipLineRest? rest)
  else if name = "TAG".toList then
    let (handle, rest) ← tagHandle? (skipBlanks rest)
    if handle ≠ ['!'] && handle.getLast? ≠ some '!' then none
    else if !isBlank (charAt 0 rest) then none
    else
      let (text, rest) ← tagChars? true [] (skipBlanks rest)
      if text.isEmpty || !endsWord (charAt 0 rest) then none
      else
        return (.tagPrefix (String.ofList handle) (String.ofList text.reverse),
          ← skipLineRest? rest)
  else none

/-! ## The state between tokens -/

/-- Something that is a key if a colon follows it. -/
structure Candidate where
  /-- The number of tokens before it. -/
  position : Nat
  line : Nat
  column : Nat
  index : Nat
  /-- Whether nothing but a key may stand here. -/
  required : Bool

/-- What is known between two tokens. -/
structure Lexer where
  /-- The tokens so far, in reverse. -/
  tokens : List Token := []
  /-- Tokens to be put in before the token at a position. -/
  noted : List (Nat × List Token) := []
  /-- The possible key of the innermost flow collection, or of the block. -/
  candidate : Option Candidate := none
  /-- The possible keys of the collections around it, innermost first. -/
  outer : List (Option Candidate) := []
  /-- The column of the innermost block collection. -/
  indent : Int := -1
  /-- The columns of the block collections around it, innermost first. -/
  indents : List Int := []
  /-- Whether a key may start here. -/
  keyAllowed : Bool := true

namespace Lexer

/-- Whether a flow collection is open. -/
def inFlow (lexer : Lexer) : Bool :=
  !lexer.outer.isEmpty

/-- Append a token. -/
def push (lexer : Lexer) (token : Token) : Lexer :=
  { lexer with tokens := token :: lexer.tokens }

/-- Give up the possible key, unless a key has to stand there. -/
def dropCandidate? (lexer : Lexer) : Option Lexer :=
  match lexer.candidate with
  | some candidate =>
      if candidate.required then none else some { lexer with candidate := none }
  | none => some lexer

/-- Note what comes next as a possible key, where one is allowed. -/
def saveCandidate? (lexer : Lexer) (glyphs : List Glyph) : Option Lexer :=
  match glyphs with
  | [] => none
  | glyph :: _ =>
      if lexer.keyAllowed then do
        let lexer ← lexer.dropCandidate?
        return { lexer with
          candidate := some {
            position := lexer.tokens.length
            line := glyph.line
            column := glyph.column
            index := glyph.index
            required := !lexer.inFlow && lexer.indent = glyph.column } }
      else some lexer

/-- Whether a possible key can no longer be one. -/
def isStale (glyph : Glyph) (candidate : Candidate) : Bool :=
  candidate.line < glyph.line || candidate.index + 1024 < glyph.index

/-- Give up possible keys that ended too long ago. -/
def dropStale? (lexer : Lexer) (glyph : Glyph) : Option Lexer := do
  let keep (candidate : Option Candidate) : Option (Option Candidate) :=
    match candidate with
    | none => some none
    | some candidate =>
        if !isStale glyph candidate then some (some candidate)
        else if candidate.required then none
        else some none
  return { lexer with
    candidate := ← keep lexer.candidate
    outer := ← lexer.outer.mapM keep }

/-- Close the block collections that are indented further than a column. -/
def closeBlocks (indent : Int) (lexer : Lexer) : List Int → Lexer
  | [] => { lexer with indents := [] }
  | outer :: rest =>
      if indent < lexer.indent then
        closeBlocks indent { lexer.push .blockEnd with indent := outer, indents := rest } rest
      else lexer

/-- Close the block collections that are indented further than a column, unless
a flow collection is open. -/
def dedent (lexer : Lexer) (column : Int) : Lexer :=
  if lexer.inFlow then lexer else closeBlocks column lexer lexer.indents

/-- Open a block collection at a column that is indented further: its token is
appended, or noted for a position. -/
def openBlock (lexer : Lexer) (column : Nat) (token : Token) (position : Option Nat) : Lexer :=
  if lexer.inFlow || (column : Int) ≤ lexer.indent then lexer
  else
    let lexer := { lexer with indent := column, indents := lexer.indent :: lexer.indents }
    match position with
    | none => lexer.push token
    | some position => { lexer with noted := (position, [token]) :: lexer.noted }

/-- Append a mark of one character, after which a key may or may not start. -/
def mark (lexer : Lexer) (token : Token) (keyAllowed : Bool) : Lexer :=
  { lexer.push token with keyAllowed }

/-- A flow collection starts. -/
def openFlow? (lexer : Lexer) (token : Token) (glyphs : List Glyph) : Option Lexer := do
  let lexer ← lexer.saveCandidate? glyphs
  return { lexer.mark token true with
    candidate := none
    outer := lexer.candidate :: lexer.outer }

/-- A flow collection ends. -/
def closeFlow? (lexer : Lexer) (token : Token) : Option Lexer := do
  let lexer ← lexer.dropCandidate?
  let lexer := lexer.mark token false
  match lexer.outer with
  | [] => return lexer
  | candidate :: outer => return { lexer with candidate, outer }

/-- An item of a block list starts. -/
def blockEntry? (lexer : Lexer) (column : Nat) : Option Lexer := do
  if !lexer.inFlow && !lexer.keyAllowed then none
  else
    let lexer ← (lexer.openBlock column .blockList none).dropCandidate?
    return lexer.mark .blockEntry true

/-- A marked key starts. -/
def key? (lexer : Lexer) (column : Nat) : Option Lexer := do
  if !lexer.inFlow && !lexer.keyAllowed then none
  else
    let lexer ← (lexer.openBlock column .blockRecord none).dropCandidate?
    return lexer.mark .key !lexer.inFlow

/-- A value starts: what was a possible key is one. -/
def value? (lexer : Lexer) (column : Nat) : Option Lexer :=
  match lexer.candidate with
  | some candidate =>
      let lexer := { lexer with
        noted := (candidate.position, [.key]) :: lexer.noted
        candidate := none }
      some ((lexer.openBlock candidate.column .blockRecord (some candidate.position)).mark
        .value false)
  | none =>
      if lexer.inFlow then some (lexer.mark .value false)
      else if !lexer.keyAllowed then none
      else some ((lexer.openBlock column .blockRecord none).mark .value true)

/-- Something that may be a key, read as a token and the rest. -/
def word? (lexer : Lexer) (glyphs : List Glyph) (token : Option (Token × List Glyph)) :
    Option (Lexer × List Glyph) := do
  let lexer ← lexer.saveCandidate? glyphs
  let (token, rest) ← token
  return (lexer.mark token false, rest)

/-- A block scalar, which is never a key. -/
def blockScalar? (lexer : Lexer) (folded : Bool) (glyphs : List Glyph) :
    Option (Lexer × List Glyph) := do
  let lexer ← lexer.dropCandidate?
  let (text, rest) ← block? folded lexer.indent (glyphs.drop 1)
  return (lexer.mark (.scalar text (if folded then .folded else .literal)) true, rest)

/-- A plain scalar; a key may start on a line after it. -/
def plainScalar? (lexer : Lexer) (glyphs : List Glyph) : Option (Lexer × List Glyph) := do
  let lexer ← lexer.saveCandidate? glyphs
  let (text, broken, rest) ← plain? lexer.inFlow (lexer.indent + 1) [] {} glyphs
  return (lexer.mark (.scalar text .plain) broken, rest)

/-- A mark between documents. -/
def between? (lexer : Lexer) : Option Lexer := do
  let lexer ← (lexer.dedent (-1)).dropCandidate?
  return { lexer with keyAllowed := false }

/-- Whether a plain scalar may start here. -/
def startsPlain (lexer : Lexer) (glyphs : List Glyph) : Bool :=
  let c := charAt 0 glyphs
  let next := charAt 1 glyphs
  let indicators :=
    ['-', '?', ':', ',', '[', ']', '\x7b', '\x7d', '#', '&', '*', '!', '|', '>', '\x27', '"',
      '%', '@', '\x60']
  !(endsWord c || indicators.contains c)
    || (c = '-' && !isBlank next)
    || (!lexer.inFlow && (c = '?' || c = ':') && !endsWord next)

/-- The next token and the rest, once white space is passed over. -/
def next? (lexer : Lexer) (glyphs : List Glyph) : Option (Lexer × List Glyph) := do
  let column := columnOf glyphs
  let c := charAt 0 glyphs
  let rest := glyphs.drop 1
  let standsAlone := lexer.inFlow || endsWord (charAt 1 glyphs)
  let quoted (scanned : Option (String × List Glyph)) : Option (Token × List Glyph) :=
    scanned.map fun (text, rest) => (.scalar text .quoted, rest)
  if column = 0 && c = '%' then
    let lexer ← lexer.between?
    let (token, rest) ← directive? glyphs
    return (lexer.push token, rest)
  else if startsWithMarks '-' glyphs then
    return ((← lexer.between?).push .documentStart, glyphs.drop 3)
  else if startsWithMarks '.' glyphs then
    return ((← lexer.between?).push .documentEnd, glyphs.drop 3)
  else if c = '[' then return (← lexer.openFlow? .flowList glyphs, rest)
  else if c = '\x7b' then return (← lexer.openFlow? .flowRecord glyphs, rest)
  else if c = ']' then return (← lexer.closeFlow? .flowListEnd, rest)
  else if c = '\x7d' then return (← lexer.closeFlow? .flowRecordEnd, rest)
  else if c = ',' then return ((← lexer.dropCandidate?).mark .flowEntry true, rest)
  else if c = '-' && endsWord (charAt 1 glyphs) then return (← lexer.blockEntry? column, rest)
  else if c = '?' && standsAlone then return (← lexer.key? column, rest)
  else if c = ':' && standsAlone then return (← lexer.value? column, rest)
  else if c = '*' then
    lexer.word? glyphs ((anchorName? rest).map fun (name, rest) => (.alias name, rest))
  else if c = '&' then
    lexer.word? glyphs ((anchorName? rest).map fun (name, rest) => (.anchor name, rest))
  else if c = '!' then lexer.word? glyphs (tag? lexer.inFlow glyphs)
  else if c = '|' && !lexer.inFlow then lexer.blockScalar? false glyphs
  else if c = '>' && !lexer.inFlow then lexer.blockScalar? true glyphs
  else if c = singleQuote then lexer.word? glyphs (quoted (singleQuoted? [] {} rest))
  else if c = '"' then lexer.word? glyphs (quoted (doubleQuoted? [] {} .text rest))
  else if lexer.startsPlain glyphs then lexer.plainScalar? glyphs
  else none

/-- Whether the characters at the front are a comment, white space, or neither. -/
inductive Margin where
  | space
  | comment

/-- Pass over white space and comments.  Tabs do not count as white space where
a block key may start, and a line end allows one. -/
def skipMargin (margin : Margin) (lexer : Lexer) : List Glyph → Lexer × List Glyph
  | [] => (lexer, [])
  | glyph :: rest =>
      let c := glyph.char
      if isBreak c then
        skipMargin .space { lexer with keyAllowed := lexer.keyAllowed || !lexer.inFlow } rest
      else
        match margin with
        | .comment =>
            if c = endMark then (lexer, glyph :: rest) else skipMargin .comment lexer rest
        | .space =>
            if c = ' ' || (c = '\t' && (lexer.inFlow || !lexer.keyAllowed))
                || (c = '\ufeff' && glyph.column = 0) then
              skipMargin .space lexer rest
            else if c = '#' then skipMargin .comment lexer rest
            else (lexer, glyph :: rest)

/-- The tokens once the text has ended. -/
def finish? (lexer : Lexer) : Option (List Token) := do
  let lexer ← lexer.between?
  let noted := (lexer.noted.mergeSort fun a b => a.1 ≤ b.1)
  return weave 0 noted lexer.tokens.reverse
where
  /-- Put noted tokens in before the tokens at their positions. -/
  weave (position : Nat) (noted : List (Nat × List Token)) (tokens : List Token) :
      List Token :=
    match tokens with
    | [] => noted.flatMap Prod.snd
    | token :: rest =>
        let here := noted.takeWhile fun entry => entry.1 ≤ position
        here.flatMap Prod.snd ++ token :: weave (position + 1) (noted.drop here.length) rest

/-- All tokens of the glyphs. -/
def run? (lexer : Lexer) (glyphs : List Glyph) : Option (List Token) :=
  match lexer.skipMargin .space glyphs with
  | (_, []) => none
  | (lexer, glyph :: rest) =>
      match lexer.dropStale? glyph with
      | none => none
      | some lexer =>
          let lexer := lexer.dedent glyph.column
          if glyph.char = endMark then lexer.finish?
          else
            match lexer.next? (glyph :: rest) with
            | none => none
            | some (lexer, after) =>
                if after.length < glyphs.length then lexer.run? after else none
termination_by glyphs.length

end Lexer

/-- The tokens of a text. -/
def tokens? (s : String) : Option (List Token) := do
  Lexer.run? {} (← glyphs? s)

end Yaml
end ContentSchema
