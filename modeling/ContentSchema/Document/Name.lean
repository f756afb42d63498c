import ContentSchema.Text.Cut

/-!
# Names of documents

A document is named by a vendor and a package with a slash between them, each
of them made of lower case letters, digits and dashes and not starting with a
dash.
-/

namespace ContentSchema

/-- Whether a character may stand in a document name. -/
def isNameChar (c : Char) : Bool :=
  ('a' ≤ c && c ≤ 'z') || ('0' ≤ c && c ≤ '9') || c = '-'

/-- Whether a text may be a vendor or a package. -/
def isValidNamePart (part : String) : Bool :=
  match part.toList with
  | [] => false
  | c :: rest => c ≠ '-' && isNameChar c && rest.all isNameChar

/-- Whether a text may name a document. -/
def isValidDocumentName (name : String) : Bool :=
  match Text.cut '/' name with
  | some (vendor, package) => isValidNamePart vendor && isValidNamePart package
  | none => false

end ContentSchema
