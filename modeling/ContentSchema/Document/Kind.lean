import ContentSchema.Datum.Reading

/-!
# Kinds of content

Every document describes content of one of four kinds.  Three of them live in a
fixed table with a fixed discriminator column; a record type names its own.
-/

namespace ContentSchema

/-- The kind of content that a document describes. -/
inductive ContentKind where
  | contentElement
  | pageType
  | recordType
  | fileType
deriving DecidableEq, Repr

namespace ContentKind

/-- The word for a kind. -/
def word : ContentKind → String
  | contentElement => "content-element"
  | pageType => "page-type"
  | recordType => "record-type"
  | fileType => "file-type"

/-- Every kind, in the order in which their folders are read. -/
def all : List ContentKind :=
  [contentElement, pageType, recordType, fileType]

/-- The table that every document of the kind targets, if it is fixed. -/
def defaultTable : ContentKind → Option String
  | contentElement => some "tt_content"
  | pageType => some "pages"
  | recordType => none
  | fileType => some "sys_file_reference"

/-- The discriminator column of the fixed table. -/
def defaultTypeField : ContentKind → Option String
  | contentElement => some "CType"
  | pageType => some "doktype"
  | recordType => none
  | fileType => some "type"

/-- The folder that holds documents of the kind. -/
def directoryName : ContentKind → String
  | contentElement => "ContentElements"
  | pageType => "PageTypes"
  | recordType => "RecordTypes"
  | fileType => "FileTypes"

/-- The kind whose documents are held in the named folder. -/
def ofDirectoryName? (name : String) : Option ContentKind :=
  all.find? fun kind => kind.directoryName = name

/-- The first part of generated icon identifiers. -/
def iconToken : ContentKind → String
  | contentElement => "content"
  | pageType => "page"
  | recordType => "record"
  | fileType => "file"

/-- Read a kind. -/
def decode (d : Datum) : Except DecodeError ContentKind :=
  d.oneOf word all

@[simp] theorem ofDirectoryName?_directoryName (kind : ContentKind) :
    ofDirectoryName? kind.directoryName = some kind := by
  cases kind <;> decide

end ContentKind

/-- What stands before the generated identifiers of a document. -/
inductive PrefixStyle where
  /-- Vendor and package. -/
  | full
  /-- The vendor alone. -/
  | vendor
deriving DecidableEq, Repr

namespace PrefixStyle

/-- The word for a style. -/
def word : PrefixStyle → String
  | full => "full"
  | vendor => "vendor"

/-- Every style. -/
def all : List PrefixStyle := [full, vendor]

/-- Read a style. -/
def decode (d : Datum) : Except DecodeError PrefixStyle :=
  d.oneOf word all

end PrefixStyle

/-- The discriminator values that a file type may have. -/
def fileTypeNames : List String :=
  ["text", "image", "audio", "video", "application"]

end ContentSchema
