import ContentSchema.Datum.Reading

/-!
# Table settings

What a document says about its whole table: which columns label and sort its
records, and which of eleven capabilities the records have.  A capability that
is not mentioned is neither on nor off.

A collection field carries the same settings for its child table among its
configuration, so settings are read from named entries of which any may be
foreign; foreign entries are passed over.
-/

namespace ContentSchema

/-- The columns that label a record: one, or several in order. -/
inductive LabelField where
  | single (identifier : String)
  | multiple (identifiers : List String)
deriving DecidableEq, Repr

/-- The labelling columns in order. -/
def LabelField.identifiers : LabelField → List String
  | .single identifier => [identifier]
  | .multiple identifiers => identifiers

/-- A sorting column with its direction as authored. -/
structure SortEntry where
  identifier : String
  order : Option String := none
deriving DecidableEq, Repr

/-- The columns that sort the records: one, or several in order. -/
inductive SortSetting where
  | single (identifier : String)
  | multiple (entries : List SortEntry)
deriving DecidableEq, Repr

/-- The sorting columns in order. -/
def SortSetting.entries : SortSetting → List SortEntry
  | .single identifier => [{ identifier }]
  | .multiple entries => entries

/-- Something that records of a table may or may not support. -/
inductive Capability where
  | languageAware
  | workspaceAware
  | editLocking
  | softDelete
  | trackCreationDate
  | trackUpdateDate
  | trackAncestorReference
  | sortable
  | readOnly
  | adminOnly
  | hideAtCopy
deriving DecidableEq, Repr

namespace Capability

/-- The word for a capability. -/
def word : Capability → String
  | languageAware => "languageAware"
  | workspaceAware => "workspaceAware"
  | editLocking => "editLocking"
  | softDelete => "softDelete"
  | trackCreationDate => "trackCreationDate"
  | trackUpdateDate => "trackUpdateDate"
  | trackAncestorReference => "trackAncestorReference"
  | sortable => "sortable"
  | readOnly => "readOnly"
  | adminOnly => "adminOnly"
  | hideAtCopy => "hideAtCopy"

/-- Every capability. -/
def all : List Capability :=
  [languageAware, workspaceAware, editLocking, softDelete, trackCreationDate, trackUpdateDate,
    trackAncestorReference, sortable, readOnly, adminOnly, hideAtCopy]

/-- The capability with the given word. -/
def ofWord? (word : String) : Option Capability :=
  all.find? fun capability => capability.word = word

theorem mem_all (capability : Capability) : capability ∈ all := by
  cases capability <;> decide

end Capability

/-- Which capabilities are declared on or off. -/
structure Capabilities where
  declared : Capability → Option Bool := fun _ => none

namespace Capabilities

@[ext] theorem ext {a b : Capabilities} (h : ∀ c, a.declared c = b.declared c) : a = b := by
  cases a
  cases b
  simp only [mk.injEq]
  exact funext h

instance : DecidableEq Capabilities := fun a b =>
  if h : ∀ c ∈ Capability.all, a.declared c = b.declared c then
    isTrue (ext fun c => h c c.mem_all)
  else isFalse fun hSame => h fun c _ => by rw [hSame]

/-- Declare one capability. -/
def declare (capabilities : Capabilities) (capability : Capability) (flag : Option Bool) :
    Capabilities :=
  ⟨fun c => if c = capability then flag else capabilities.declared c⟩

/-- The declarations of `overlay`, and those of `base` where it makes none. -/
def merge (base overlay : Capabilities) : Capabilities :=
  ⟨fun c => overlay.declared c <|> base.declared c⟩

/-- The declared capabilities as entries. -/
def encodeEntries (capabilities : Capabilities) : List (String × Value) :=
  Capability.all.flatMap fun c => Value.boolEntry? c.word (capabilities.declared c)

/-- Declare what a named entry says, if it names a capability. -/
def readEntry (capabilities : Capabilities) (entry : String × Datum) :
    Except DecodeError Capabilities :=
  match Capability.ofWord? entry.1 with
  | some capability => do
      return capabilities.declare capability (← entry.2.optional Datum.bool)
  | none => .ok capabilities

end Capabilities

/-- Settings of a whole table. -/
structure TableSettings where
  labelField : Option LabelField := none
  fallbackLabelFields : List String := []
  sortField : Option SortSetting := none
  aggregateRoot : Option Bool := none
  rootLevelType : Option String := none
  appendLabel : Option Bool := none
  capabilities : Capabilities := {}
deriving DecidableEq

/-- The written form of labelling columns. -/
def LabelField.encode : LabelField → Value
  | .single identifier => .string identifier
  | .multiple identifiers => Value.strings identifiers

/-- Read labelling columns. -/
def LabelField.decode (d : Datum) : Except DecodeError LabelField :=
  match d.text, d.listOf Datum.text with
  | .ok identifier, _ => .ok (.single identifier)
  | .error _, .ok identifiers => .ok (.multiple identifiers)
  | .error _, .error _ => .error (.noAlternative "LabelField")

/-- The written form of a sorting column. -/
def SortEntry.encode (entry : SortEntry) : Value :=
  .object (("identifier", .string entry.identifier) :: Value.textEntry? "order" entry.order)

/-- Read a sorting column. -/
def SortEntry.decode (d : Datum) : Except DecodeError SortEntry := do
  let slots ← d.slots ["identifier", "order"]
  return {
    identifier := ← slots.required "identifier" Datum.text
    order := ← slots.optional "order" Datum.text }

/-- The written form of a sort setting. -/
def SortSetting.encode : SortSetting → Value
  | .single identifier => .string identifier
  | .multiple entries => .list (entries.map SortEntry.encode)

/-- Read a sort setting. -/
def SortSetting.decode (d : Datum) : Except DecodeError SortSetting :=
  match d.text, d.listOf SortEntry.decode with
  | .ok identifier, _ => .ok (.single identifier)
  | .error _, .ok entries => .ok (.multiple entries)
  | .error _, .error _ => .error (.noAlternative "SortFieldSpec")

namespace TableSettings

/-- The names of all settings, capabilities included. -/
def names : List String :=
  ["labelField", "fallbackLabelFields", "sortField", "aggregateRoot", "rootLevelType",
    "appendLabel", "languageAware", "workspaceAware", "editLocking", "softDelete",
    "trackCreationDate", "trackUpdateDate", "trackAncestorReference", "sortable", "readOnly",
    "adminOnly", "hideAtCopy"]

/-- The settings as entries; what is not set is left out. -/
def encodeEntries (settings : TableSettings) : List (String × Value) :=
  Value.entry? "labelField" (settings.labelField.map LabelField.encode)
    ++ (if settings.fallbackLabelFields.isEmpty then []
        else [("fallbackLabelFields", Value.strings settings.fallbackLabelFields)])
    ++ Value.entry? "sortField" (settings.sortField.map SortSetting.encode)
    ++ Value.boolEntry? "aggregateRoot" settings.aggregateRoot
    ++ Value.textEntry? "rootLevelType" settings.rootLevelType
    ++ Value.boolEntry? "appendLabel" settings.appendLabel
    ++ settings.capabilities.encodeEntries

/-- Set what a named entry says, unless it is foreign or names a capability. -/
def readEntry (settings : TableSettings) (entry : String × Datum) :
    Except DecodeError TableSettings := do
  let d := entry.2
  match entry.1 with
  | "labelField" => return { settings with labelField := ← d.optional LabelField.decode }
  | "fallbackLabelFields" =>
      return { settings with fallbackLabelFields := ← d.listOf Datum.text }
  | "sortField" => return { settings with sortField := ← d.optional SortSetting.decode }
  | "aggregateRoot" => return { settings with aggregateRoot := ← d.optional Datum.bool }
  | "rootLevelType" => return { settings with rootLevelType := ← d.optional Datum.text }
  | "appendLabel" => return { settings with appendLabel := ← d.optional Datum.bool }
  | _ => return settings

/-- Read settings from named entries, of which no setting may repeat.  The plain
settings are read first and the capabilities after them, each in the order in
which they are written. -/
def decodeEntries (entries : List (String × Datum)) : Except DecodeError TableSettings := do
  let written := (entries.map Prod.fst).filter names.contains
  match written.find? fun name => 1 < written.count name with
  | some name => .error (.repeated name)
  | none =>
      let settings ← entries.foldlM readEntry {}
      let capabilities ← entries.foldlM Capabilities.readEntry {}
      return { settings with capabilities }

/-- The written form of settings. -/
def encode (settings : TableSettings) : Value :=
  .object settings.encodeEntries

end TableSettings

end ContentSchema
