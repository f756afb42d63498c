import ContentSchema.Number.Double

/-!
# Written scalars

A scalar whose type is not fixed by its notation.  `Scalar` keeps the text, the
style it was written in and an explicit tag, and the functions below say which
null, truth value, integer, double or text it stands for.  A plain scalar is
read by the core rules: three spellings of each truth value, four of null,
decimal, hexadecimal, octal and binary integers, and decimal doubles.  A
numeral with superfluous leading zeros is a text.
-/

namespace ContentSchema

/-- How a scalar was written. -/
inductive ScalarStyle where
  | plain
  | quoted
  | literal
  | folded
deriving DecidableEq, Repr

/-- A scalar as written. -/
structure Scalar where
  text : String
  style : ScalarStyle := .plain
  tag : Option String := none
deriving DecidableEq, Repr

/-- A typed scalar. -/
inductive Atom where
  | null
  | bool (b : Bool)
  | int (n : Int)
  | double (d : Double)
  | string (s : String)
deriving DecidableEq, Repr

namespace Scalar

/-- The tags of the four core scalar types. -/
def nullTag : String := "tag:yaml.org,2002:null"

@[inherit_doc nullTag] def boolTag : String := "tag:yaml.org,2002:bool"

@[inherit_doc nullTag] def intTag : String := "tag:yaml.org,2002:int"

@[inherit_doc nullTag] def doubleTag : String := "tag:yaml.org,2002:float"

/-- Whether a text is one of the spellings of null. -/
def isNullText (s : String) : Bool :=
  s = "null" || s = "Null" || s = "NULL" || s = "~"

/-- The truth value that a text spells. -/
def bool? (s : String) : Option Bool :=
  if s = "true" || s = "True" || s = "TRUE" then some true
  else if s = "false" || s = "False" || s = "FALSE" then some false
  else none

/-- The value of a digit in a radix of at most sixteen. -/
def digit? (radix : Nat) (c : Char) : Option Nat :=
  let value :=
    if c.isDigit then c.toNat - '0'.toNat
    else if 'a' ≤ c ∧ c ≤ 'f' then c.toNat - 'a'.toNat + 10
    else if 'A' ≤ c ∧ c ≤ 'F' then c.toNat - 'A'.toNat + 10
    else radix
  if value < radix then some value else none

/-- The number that a nonempty list of digits stands for. -/
def digits? (radix : Nat) (cs : List Char) : Option Nat :=
  if cs.isEmpty then none
  else cs.foldlM (fun acc c => (digit? radix c).map fun d => acc * radix + d) 0

/-- Whether a text is a numeral with superfluous leading zeros. -/
def isPaddedNumeral (cs : List Char) : Bool :=
  let body := match cs with
    | '-' :: rest => rest
    | '+' :: rest => rest
    | _ => cs
  match body with
  | '0' :: rest => !rest.isEmpty && rest.all Char.isDigit
  | _ => false

/-- The digits of a numeral whose radix is marked by `0x`, `0o` or `0b`. -/
def radixDigits? (cs : List Char) : Option (Nat × List Char) :=
  match cs with
  | '0' :: 'x' :: rest => some (16, rest)
  | '0' :: 'o' :: rest => some (8, rest)
  | '0' :: 'b' :: rest => some (2, rest)
  | _ => none

/-- The value of an unsigned numeral: an optional plus, then digits of the
marked radix or decimal digits without padding. -/
def natural? (cs : List Char) : Option Nat :=
  let body := match cs with
    | '+' :: rest => rest
    | _ => cs
  match radixDigits? body with
  | some (radix, rest) => digits? radix rest
  | none => if isPaddedNumeral cs then none else digits? 10 body

/-- The magnitude of a numeral with a minus. -/
def negative? (cs : List Char) : Option Nat :=
  match cs with
  | '-' :: body =>
      match radixDigits? body with
      | some (radix, rest) => digits? radix rest
      | none => if isPaddedNumeral cs then none else digits? 10 body
  | _ => none

/-- The integer that a numeral stands for, of any size. -/
def integer? (cs : List Char) : Option Int :=
  match natural? cs with
  | some n => some n
  | none => (negative? cs).map fun n => -(n : Int)

/-- A decimal with an optional fraction and exponent, as digits and scale. -/
def decimal? (cs : List Char) : Option (Nat × Int) :=
  let whole := cs.takeWhile Char.isDigit
  let afterWhole := cs.dropWhile Char.isDigit
  let fraction := match afterWhole with
    | '.' :: rest => rest.takeWhile Char.isDigit
    | _ => []
  let afterFraction := match afterWhole with
    | '.' :: rest => rest.dropWhile Char.isDigit
    | _ => afterWhole
  let power? : Option Int := match afterFraction with
    | [] => some 0
    | e :: rest =>
        if e = 'e' ∨ e = 'E' then
          match rest with
          | '-' :: ds => (digits? 10 ds).map fun n => -(n : Int)
          | '+' :: ds => (digits? 10 ds).map fun n => (n : Int)
          | ds => (digits? 10 ds).map fun n => (n : Int)
        else none
  match digits? 10 (whole ++ fraction), power? with
  | some digits, some power => some (digits, power - fraction.length)
  | _, _ => none

/-- The double that a text spells: infinities, the undefined number, or a
decimal that does not overflow. -/
def double? (s : String) : Option Double :=
  let cs := s.toList
  let unsigned := match cs with
    | '+' :: rest => rest
    | _ => cs
  if ["inf", "Inf", "INF"].any fun name => unsigned = '.' :: name.toList then
    some .infinity
  else if ["inf", "Inf", "INF"].any fun name => cs = '-' :: '.' :: name.toList then
    some Double.infinity.neg
  else if s = ".nan" || s = ".NaN" || s = ".NAN" then some .undefined
  else
    let finite (d : Double) : Option Double := if d.isFinite then some d else none
    match unsigned with
    | '-' :: rest =>
        if cs.head? = some '+' then none
        else (decimal? rest).bind fun (digits, scale) =>
          (finite (Double.ofDecimal digits scale)).map Double.neg
    | _ =>
        (decimal? unsigned).bind fun (digits, scale) =>
          finite (Double.ofDecimal digits scale)

/-- Whether an integer fits a signed or an unsigned word of sixty-four bits. -/
def fitsWord (n : Int) : Bool :=
  -0x8000000000000000 ≤ n && n < 0x10000000000000000

/-- Whether an integer fits a signed or an unsigned word of twice that size,
beyond which a numeral is read as a double. -/
def fitsDoubleWord (n : Int) : Bool :=
  -0x80000000000000000000000000000000 ≤ n && n < 0x100000000000000000000000000000000

/-- The integer that a numeral stands for, if it is small enough to be one. -/
def wideInteger? (s : String) : Option Int :=
  (integer? s.toList).filter fitsDoubleWord

/-- The type of a plain scalar.  An integer that fits no word has none. -/
def resolvePlain (s : String) : Option Atom :=
  if s.isEmpty || isNullText s then some .null
  else match bool? s with
    | some b => some (.bool b)
    | none =>
        match wideInteger? s with
        | some n => if fitsWord n then some (.int n) else none
        | none =>
            if isPaddedNumeral s.toList then some (.string s)
            else match double? s with
              | some d => some (.double d)
              | none => some (.string s)

/-- The type of a scalar.  A core tag demands its own spelling, any other
global tag makes a text, and a local tag has no type. -/
def resolve (s : Scalar) : Option Atom :=
  match s.tag with
  | none => if s.style = .plain then resolvePlain s.text else some (.string s.text)
  | some tag =>
      if tag = boolTag then (bool? s.text).map Atom.bool
      else if tag = intTag then
        ((wideInteger? s.text).filter fitsWord).map Atom.int
      else if tag = doubleTag then (double? s.text).map Atom.double
      else if tag = nullTag then if isNullText s.text then some .null else none
      else if tag.startsWith "!" then none
      else some (.string s.text)

/-- Whether the scalar may be read as the core type of the given tag: it is
plain, or a literal block that carries the tag. -/
def admits (tag : String) (s : Scalar) : Bool :=
  s.style = .plain || (s.style = .literal && s.tag = some tag)

/-- Whether the scalar is an empty plain one, which also stands for an empty
collection. -/
def isVacant (s : Scalar) : Bool :=
  s.style = .plain && s.text.isEmpty

end Scalar

end ContentSchema
