import ContentSchema.Datum.Reading

/-!
# Reading JSON

A text is cut into tokens by a machine that takes one character at a time, and
the tokens are folded into data over a stack of open containers.  The grammar
is strict: no leading zeros, no trailing commas, no control characters inside
strings, surrogate escapes only in pairs, at most 127 containers inside each
other, and nothing but white space after the value.

Integers that fit a word stay integers.  Every other number is a significand of
at most sixty-four bits scaled by a power of ten, and one beyond the largest
double is refused.
-/

namespace ContentSchema
namespace Json

/-- A token of the notation. -/
inductive Token where
  | openList
  | closeList
  | openRecord
  | closeRecord
  | comma
  | colon
  | atom (a : Atom)
deriving Repr

/-! ## Numbers -/

/-- Take digits into a significand as long as it fits sixty-four bits; the
count of digits taken and the rest follow. -/
def takeDigits (significand count : Nat) : List Char → Nat × Nat × List Char
  | [] => (significand, count, [])
  | c :: rest =>
      let next := significand * 10 + (c.toNat - '0'.toNat)
      if c.isDigit && next < 0x10000000000000000 then takeDigits next (count + 1) rest
      else (significand, count, c :: rest)

/-- The double of a significand and a scale, under a sign. -/
def signedDouble? (negative : Bool) (significand : Nat) (scale : Int) : Option Atom :=
  (Double.scaled significand scale).map fun d => .double (if negative then d.neg else d)

/-- The exponent part of a number, or its end. -/
def exponentPart? (negative : Bool) (significand : Nat) (scale : Int) :
    List Char → Option Atom
  | [] => signedDouble? negative significand scale
  | e :: rest =>
      if e ≠ 'e' ∧ e ≠ 'E' then none
      else
        let (minus, digits) := match rest with
          | '-' :: ds => (true, ds)
          | '+' :: ds => (false, ds)
          | ds => (false, ds)
        if digits.isEmpty || !digits.all Char.isDigit then none
        else
          let power := digits.foldl (fun acc c => acc * 10 + (c.toNat - '0'.toNat)) 0
          if 0x80000000 ≤ power then
            if significand ≠ 0 ∧ !minus then none
            else some (.double (if negative then Double.zero.neg else .zero))
          else
            let power : Int := if minus then -(power : Int) else power
            signedDouble? negative significand (scale + power)

/-- The fraction part of a number, whose point has been read. -/
def fractionPart? (negative : Bool) (significand : Nat) (scale : Int) (cs : List Char) :
    Option Atom :=
  let (significand, count, rest) := takeDigits significand 0 cs
  if cs.head?.all (fun c => !c.isDigit) then none
  else exponentPart? negative significand (scale - count) (rest.dropWhile Char.isDigit)

/-- The integer of a sign and a magnitude of sixty-four bits: a negative one
below the smallest signed word, and the negative zero, are doubles. -/
def signedInt? (negative : Bool) (n : Nat) : Option Atom :=
  if negative then
    if n = 0 || 0x8000000000000000 < n then some (.double (Double.ofNat n).neg) else some (.int (-(n : Int)))
  else some (.int n)

/-- The number that an unsigned text stands for, under a sign. -/
def unsignedNumber? (negative : Bool) (cs : List Char) : Option Atom :=
  match cs with
  | '0' :: c :: rest =>
      if c.isDigit then none
      else if c = '.' then fractionPart? negative 0 0 rest
      else exponentPart? negative 0 0 (c :: rest)
  | cs =>
      let (significand, count, rest) := takeDigits 0 0 cs
      if count = 0 then none
      else
        match rest with
        | [] => signedInt? negative significand
        | c :: tail =>
            if c = '.' then fractionPart? negative significand 0 tail
            else if c.isDigit then
              let dropped := (rest.takeWhile Char.isDigit).length
              match rest.dropWhile Char.isDigit with
              | '.' :: tail => fractionPart? negative significand dropped tail
              | tail => exponentPart? negative significand dropped tail
            else exponentPart? negative significand 0 rest

/-- The number that a text stands for. -/
def number? (cs : List Char) : Option Atom :=
  match cs with
  | '-' :: rest => unsignedNumber? true rest
  | _ => unsignedNumber? false cs

/-- The atom that an unquoted word stands for. -/
def word? (cs : List Char) : Option Atom :=
  if cs = ['n', 'u', 'l', 'l'] then some .null
  else if cs = ['t', 'r', 'u', 'e'] then some (.bool true)
  else if cs = ['f', 'a', 'l', 's', 'e'] then some (.bool false)
  else number? cs

/-! ## Tokens -/

/-- Where the machine stands inside a string. -/
inductive Escape where
  | none
  /-- A backslash has been read. -/
  | started
  /-- Hexadecimal digits are being read, after the high half of a pair if any. -/
  | digits (high : Option Nat) (value count : Nat)
  /-- The high half of a pair has been read and its low half must follow. -/
  | awaitLow (high : Nat) (backslash : Bool)

/-- What the machine is in the middle of.  Characters are kept in reverse. -/
inductive Mode where
  | between
  | word (cs : List Char)
  | string (cs : List Char) (escape : Escape)

/-- The machine: what it is in the middle of, and the tokens in reverse. -/
structure Lexer where
  mode : Mode := .between
  tokens : List Token := []

/-- White space between tokens. -/
def isBlankChar (c : Char) : Bool :=
  c = ' ' || c = '\n' || c = '\t' || c = '\r'

/-- The token of a single punctuation character. -/
def punctuation? (c : Char) : Option Token :=
  if c = '[' then some .openList
  else if c = ']' then some .closeList
  else if c = '\x7b' then some .openRecord
  else if c = '\x7d' then some .closeRecord
  else if c = ',' then some .comma
  else if c = ':' then some .colon
  else none

/-- A character between tokens. -/
def Lexer.between (tokens : List Token) (c : Char) : Lexer :=
  if isBlankChar c then ⟨.between, tokens⟩
  else match punctuation? c with
    | some token => ⟨.between, token :: tokens⟩
    | none =>
        if c = '"' then ⟨.string [] .none, tokens⟩ else ⟨.word [c], tokens⟩

/-- The character of a short escape. -/
def shortEscape? (c : Char) : Option Char :=
  if c = '"' then some '"'
  else if c = '\\' then some '\\'
  else if c = '/' then some '/'
  else if c = 'b' then some '\x08'
  else if c = 'f' then some '\x0c'
  else if c = 'n' then some '\n'
  else if c = 'r' then some '\r'
  else if c = 't' then some '\t'
  else none

/-- The end of four hexadecimal digits: a character, the first half of a pair,
or the second half that completes one. -/
def finishDigits (cs : List Char) (high : Option Nat) (value : Nat) : Option Mode :=
  match high with
  | some high =>
      if 0xdc00 ≤ value ∧ value < 0xe000 then
        some (.string (Char.ofNat (0x10000 + (high - 0xd800) * 0x400 + (value - 0xdc00)) :: cs) .none)
      else none
  | none =>
      if 0xd800 ≤ value ∧ value < 0xdc00 then some (.string cs (.awaitLow value false))
      else if 0xdc00 ≤ value ∧ value < 0xe000 then none
      else some (.string (Char.ofNat value :: cs) .none)

/-- A character inside a string. -/
def stringStep (tokens : List Token) (cs : List Char) (escape : Escape) (c : Char) :
    Option Lexer :=
  match escape with
  | .none =>
      if c = '"' then some ⟨.between, .atom (.string (String.ofList cs.reverse)) :: tokens⟩
      else if c = '\\' then some ⟨.string cs .started, tokens⟩
      else if c.toNat < 0x20 then none
      else some ⟨.string (c :: cs) .none, tokens⟩
  | .started =>
      if c = 'u' then some ⟨.string cs (.digits none 0 0), tokens⟩
      else (shortEscape? c).map fun c => ⟨.string (c :: cs) .none, tokens⟩
  | .digits high value count =>
      match Scalar.digit? 16 c with
      | none => none
      | some d =>
          let value := value * 16 + d
          if count = 3 then (finishDigits cs high value).map fun mode => ⟨mode, tokens⟩
          else some ⟨.string cs (.digits high value (count + 1)), tokens⟩
  | .awaitLow high backslash =>
      if !backslash && c = '\\' then some ⟨.string cs (.awaitLow high true), tokens⟩
      else if backslash && c = 'u' then some ⟨.string cs (.digits (some high) 0 0), tokens⟩
      else none

/-- One character of the text. -/
def Lexer.step (lexer : Lexer) (c : Char) : Option Lexer :=
  match lexer.mode with
  | .between => some (Lexer.between lexer.tokens c)
  | .word cs =>
      if isBlankChar c || (punctuation? c).isSome || c = '"' then
        (word? cs.reverse).map fun atom => Lexer.between (.atom atom :: lexer.tokens) c
      else some ⟨.word (c :: cs), lexer.tokens⟩
  | .string cs escape => stringStep lexer.tokens cs escape c

/-- The tokens once the text has ended. -/
def Lexer.finish (lexer : Lexer) : Option (List Token) :=
  match lexer.mode with
  | .between => some lexer.tokens.reverse
  | .word cs => (word? cs.reverse).map fun atom => (Token.atom atom :: lexer.tokens).reverse
  | .string _ _ => none

/-- The tokens of a text. -/
def tokens? (s : String) : Option (List Token) := do
  let lexer ← s.toList.foldlM Lexer.step {}
  lexer.finish

/-! ## Containers -/

/-- What may come next inside an open container. -/
inductive Expecting where
  /-- The container has just been opened. -/
  | first
  /-- A comma has been read. -/
  | next
  /-- A part is complete. -/
  | separator

/-- A container that is still open, its parts in reverse. -/
inductive Frame where
  | list (items : List Datum) (expecting : Expecting)
  | record (entries : List (Datum × Datum)) (expecting : Expecting)
  /-- A record with the name of its next entry, before or after the colon. -/
  | named (entries : List (Datum × Datum)) (name : String) (colon : Bool)

/-- The open containers, innermost first, and the value once it is complete. -/
structure Builder where
  frames : List Frame := []
  result : Option Datum := none

/-- How many containers may stand inside each other. -/
def maxDepth : Nat := 127

/-- A complete part, handed to the container it stands in. -/
def Builder.complete (frames : List Frame) (d : Datum) : Option Builder :=
  match frames with
  | [] => some ⟨[], some d⟩
  | .list items .first :: rest => some ⟨.list (d :: items) .separator :: rest, none⟩
  | .list items .next :: rest => some ⟨.list (d :: items) .separator :: rest, none⟩
  | .named entries name true :: rest =>
      some ⟨.record ((.atom (.string name), d) :: entries) .separator :: rest, none⟩
  | _ => none

/-- Whether a new part may start here. -/
def Builder.admitsPart (frames : List Frame) : Bool :=
  match frames with
  | [] => true
  | .list _ .first :: _ => true
  | .list _ .next :: _ => true
  | .named _ _ true :: _ => true
  | _ => false

/-- Open a container where a part may start. -/
def Builder.open? (builder : Builder) (frame : Frame) : Option Builder :=
  if Builder.admitsPart builder.frames && builder.frames.length < maxDepth then
    some ⟨frame :: builder.frames, none⟩
  else none

/-- One token of the text. -/
def Builder.step (builder : Builder) (token : Token) : Option Builder :=
  if builder.result.isSome then none
  else
    match token, builder.frames with
    | .openList, _ => builder.open? (.list [] .first)
    | .openRecord, _ => builder.open? (.record [] .first)
    | .closeList, .list items .first :: rest => Builder.complete rest (.list items.reverse)
    | .closeList, .list items .separator :: rest => Builder.complete rest (.list items.reverse)
    | .closeRecord, .record entries .first :: rest =>
        Builder.complete rest (.record entries.reverse)
    | .closeRecord, .record entries .separator :: rest =>
        Builder.complete rest (.record entries.reverse)
    | .comma, .list items .separator :: rest => some ⟨.list items .next :: rest, none⟩
    | .comma, .record entries .separator :: rest => some ⟨.record entries .next :: rest, none⟩
    | .colon, .named entries name false :: rest => some ⟨.named entries name true :: rest, none⟩
    | .atom (.string s), .record entries .first :: rest => some ⟨.named entries s false :: rest, none⟩
    | .atom (.string s), .record entries .next :: rest => some ⟨.named entries s false :: rest, none⟩
    | .atom a, frames => Builder.complete frames (.atom a)
    | _, _ => none

/-- The data that a JSON text stands for. -/
def read? (s : String) : Option Datum := do
  let tokens ← tokens? s
  let builder ← tokens.foldlM Builder.step {}
  builder.result

/-- The value that a JSON text stands for. -/
def readValue? (s : String) : Option Value :=
  (read? s).bind Datum.value?

/-- Read what a JSON text stands for, or say why that is impossible. -/
def readAs {α : Type} (decode : Datum → Except DecodeError α) (s : String) :
    Except String α :=
  match read? s with
  | some d => (decode d).mapError DecodeError.message
  | none => .error "malformed document"

end Json
end ContentSchema
