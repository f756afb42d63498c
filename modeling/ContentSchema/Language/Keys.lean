import ContentSchema.Datum.Reading

/-!
# Language keys

Every label that a document registers becomes a key with a default text.  The
keys are listed by document, in the order in which they were registered.
-/

namespace ContentSchema

/-- A registered language key. -/
structure LanguageKey where
  /-- The position below the language file. -/
  key : String
  /-- The position with its file. -/
  path : String
  /-- The authored text. -/
  default : String
deriving DecidableEq, Repr

namespace LanguageKey

/-- The written form of a key. -/
def encode (key : LanguageKey) : Value :=
  .object [("key", .string key.key), ("path", .string key.path), ("default", .string key.default)]

/-- Read a key. -/
def decode (d : Datum) : Except DecodeError LanguageKey := do
  let slots ← d.slots ["key", "path", "default"]
  return {
    key := ← slots.required "key" Datum.text
    path := ← slots.required "path" Datum.text
    default := ← slots.required "default" Datum.text }

end LanguageKey

/-- The registered keys of each document. -/
abbrev LanguageKeys := Entries (List LanguageKey)

namespace LanguageKeys

/-- Register a key of a document. -/
def add (keys : LanguageKeys) (document : String) (key : LanguageKey) : LanguageKeys :=
  Entries.append document key keys

/-- The keys of a document. -/
def get (keys : LanguageKeys) (document : String) : List LanguageKey :=
  (keys.lookup document).getD []

/-- Each distinct key with the text it was first registered with. -/
def sourceTexts (keys : List LanguageKey) : Entries String :=
  keys.foldl (fun texts key => Entries.insertNew key.key key.default texts) []

/-- The source texts of every document. -/
def sourceMap (keys : LanguageKeys) : Entries (Entries String) :=
  Entries.mapValues sourceTexts keys

/-- The written form of registered keys. -/
def encode (keys : LanguageKeys) : Value :=
  .object (Entries.mapValues (fun keys => .list (keys.map LanguageKey.encode)) keys)

/-- Read registered keys. -/
def decode (d : Datum) : Except DecodeError LanguageKeys :=
  d.mapOf (Datum.listOf LanguageKey.decode)

end LanguageKeys

end ContentSchema
