/-!
# Field types

A catalog maps the type names that authors write to descriptors: the structural
kind of a field, the kind of storage it compiles to, and a few capabilities.
Descriptors are listed in ascending order of their names, each name once.
-/

namespace ContentSchema

/-- The structural role of a field type. -/
inductive FieldKind where
  /-- A plain column. -/
  | ordinary
  /-- Groups sibling fields for display. -/
  | palette
  /-- Starts a section of the form. -/
  | tab
  /-- Breaks a row of a palette. -/
  | linebreak
  /-- A list of child records in a table of their own. -/
  | collection
  /-- A nested form structure inside one column. -/
  | flexForm
deriving DecidableEq, Repr

namespace FieldKind

/-- The word for a structural role. -/
def word : FieldKind → String
  | ordinary => "ordinary"
  | palette => "palette"
  | tab => "tab"
  | linebreak => "linebreak"
  | collection => "collection"
  | flexForm => "flex-form"

/-- Every structural role. -/
def all : List FieldKind :=
  [ordinary, palette, tab, linebreak, collection, flexForm]

end FieldKind

/-- The kind of storage and form element that a field type compiles to. -/
inductive StorageKind where
  | input
  | text
  | number
  | email
  | link
  | password
  | color
  | datetime
  | check
  | radio
  | select
  | category
  | group
  | folder
  | file
  /-- References to child records. -/
  | inline
  /-- A nested data structure. -/
  | flex
  | language
  | uuid
  | json
  | slug
  | country
  /-- Stored without any form element or label. -/
  | passthrough
  /-- A structural marker that stores nothing. -/
  | none
deriving DecidableEq, Repr

namespace StorageKind

/-- The word for a kind of storage. -/
def word : StorageKind → String
  | input => "input"
  | text => "text"
  | number => "number"
  | email => "email"
  | link => "link"
  | password => "password"
  | color => "color"
  | datetime => "datetime"
  | check => "check"
  | radio => "radio"
  | select => "select"
  | category => "category"
  | group => "group"
  | folder => "folder"
  | file => "file"
  | inline => "inline"
  | flex => "flex"
  | language => "language"
  | uuid => "uuid"
  | json => "json"
  | slug => "slug"
  | country => "country"
  | passthrough => "passthrough"
  | none => "none"

/-- Every kind of storage. -/
def all : List StorageKind :=
  [input, text, number, email, link, password, color, datetime, check, radio, select, category,
    group, folder, file, inline, flex, language, uuid, json, slug, country, passthrough, none]

end StorageKind

/-- How the labels of a field's items are keyed in translations. -/
inductive ItemLabels where
  /-- The type has no items. -/
  | none
  /-- By the value of the item. -/
  | byValue
  /-- By the position of the item. -/
  | byIndex
deriving DecidableEq, Repr

namespace ItemLabels

/-- The word for a way of keying items. -/
def word : ItemLabels → String
  | none => "none"
  | byValue => "by-value"
  | byIndex => "by-index"

/-- Every way of keying items. -/
def all : List ItemLabels := [none, byValue, byIndex]

end ItemLabels

/-- What the compiler knows of one field type. -/
structure TypeDescriptor where
  /-- The name that authors write. -/
  name : String
  kind : FieldKind := .ordinary
  storage : StorageKind
  /-- Whether values take part in backend search. -/
  searchable : Bool := false
  /-- Whether the type is a form element that stands on its own, which
  FlexForm containers require. -/
  renderable : Bool := true
  /-- Whether values refer to other records. -/
  relational : Bool := false
  items : ItemLabels := .none
deriving DecidableEq, Repr

/-- The descriptor of a structural marker. -/
def TypeDescriptor.structural (name : String) (kind : FieldKind) : TypeDescriptor where
  name := name
  kind := kind
  storage := .none
  renderable := false

/-- Field types by name, in ascending order of names. -/
structure Catalog where
  types : List TypeDescriptor := []
deriving DecidableEq, Repr

namespace Catalog

/-- Put a descriptor at its place among descriptors in ascending order of names,
over one of the same name. -/
def place (descriptor : TypeDescriptor) : List TypeDescriptor → List TypeDescriptor
  | [] => [descriptor]
  | other :: rest =>
      if descriptor.name < other.name then descriptor :: other :: rest
      else if descriptor.name = other.name then descriptor :: rest
      else other :: place descriptor rest

/-- Register a descriptor, replacing one of the same name. -/
def register (catalog : Catalog) (descriptor : TypeDescriptor) : Catalog :=
  ⟨place descriptor catalog.types⟩

/-- The descriptor of a type name. -/
def find? (catalog : Catalog) (name : String) : Option TypeDescriptor :=
  catalog.types.find? fun descriptor => descriptor.name = name

/-- Whether a type name is registered. -/
def contains (catalog : Catalog) (name : String) : Bool :=
  (catalog.find? name).isSome

/-- The registered names in ascending order. -/
def names (catalog : Catalog) : List String :=
  catalog.types.map TypeDescriptor.name

/-- The number of registered types. -/
def size (catalog : Catalog) : Nat :=
  catalog.types.length

/-- The built-in field types. -/
def builtin : List TypeDescriptor :=
  [ { name := "Text", storage := .input, searchable := true },
    { name := "Textarea", storage := .text, searchable := true },
    { name := "Number", storage := .number },
    { name := "Email", storage := .email, searchable := true },
    { name := "Link", storage := .link, searchable := true },
    { name := "Password", storage := .password },
    { name := "Color", storage := .color },
    { name := "DateTime", storage := .datetime },
    { name := "Checkbox", storage := .check, items := .byIndex },
    { name := "Radio", storage := .radio, items := .byValue },
    { name := "Select", storage := .select, items := .byValue },
    { name := "Category", storage := .category, relational := true, renderable := false },
    { name := "Relation", storage := .group, relational := true },
    { name := "Folder", storage := .folder, relational := true },
    { name := "File", storage := .file, relational := true, renderable := false },
    { name := "Collection", kind := .collection, storage := .inline, relational := true,
      renderable := false },
    { name := "FlexForm", kind := .flexForm, storage := .flex, renderable := false },
    { name := "Language", storage := .language },
    { name := "Uuid", storage := .uuid, renderable := false },
    { name := "Json", storage := .json },
    { name := "Slug", storage := .slug, renderable := false },
    { name := "Country", storage := .country },
    { name := "Pass", storage := .passthrough, renderable := false },
    .structural "Palette" .palette,
    .structural "Tab" .tab,
    .structural "Linebreak" .linebreak ]

/-- The catalog without any type. -/
def empty : Catalog := {}

/-- The catalog of built-in field types. -/
def standard : Catalog :=
  builtin.foldl register empty

end Catalog

end ContentSchema
