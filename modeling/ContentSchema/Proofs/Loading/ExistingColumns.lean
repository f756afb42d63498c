import ContentSchema.Loading.BaseSchemaFile
import ContentSchema.Proofs.Entries.Overlays
import ContentSchema.Proofs.Loading.Sources
import Mathlib

/-!
# Existing columns from files

The host columns and the columns of a file are described in turn, each if the catalog
knows its type.  A column that is described again keeps its place and takes the new
type, so the columns of a table are those of the file laid over those of the host.

* `BaseSchema.insertKnown` describes columns in turn, and `BaseSchema.columns_insertKnown`
  tells the columns of a table after that.
* `BaseSchema.extend_eq` says when the columns of a file can be added at all.
* `BaseSchema.Overlays` says what is described in the end.
* `BaseSchema.laysOver_of_readAs` is about files and texts.

Host columns of an unknown type are left out.  In a file an unknown type is an error,
even if it is that of a host column.
-/

namespace ContentSchema

/-! ## Descriptions that are read -/

/-- No name is repeated in a record that is read, and every value was read. -/
theorem Datum.mapOf_eq_ok {α : Type} {read : Datum → Except DecodeError α} {d : Datum}
    {entries : Entries α} (hRead : d.mapOf read = .ok entries) :
    Entries.Distinct entries ∧
      ∀ name value, (name, value) ∈ entries → ∃ part, read part = .ok value := by
  unfold mapOf at hRead
  simp only [bind_eq_ok_iff] at hRead
  obtain ⟨parts, _, pairs, hPairs, hMade⟩ := hRead
  obtain rfl := Except.ok.inj hMade
  refine ⟨Entries.distinct_ofList pairs, fun name value hEntry => ?_⟩
  obtain ⟨⟨_, part⟩, _, hPart⟩ := exists_of_mem_mapM hPairs (Entries.mem_of_mem_ofList hEntry)
  simp only [bind_eq_ok_iff] at hPart
  obtain ⟨_, _, _, hValue, hPair⟩ := hPart
  obtain ⟨_, rfl⟩ := Prod.mk.inj (Except.ok.inj hPair)
  exact ⟨part, hValue⟩

/-! ## Columns of one table -/

/-- The columns of one table among columns of several. -/
def ofTable {α : Type} (table : String) (described : List (String × String × α)) : Entries α :=
  (described.filter fun column => column.1 = table).map Prod.snd

section OfTable

variable {α : Type} {table column other : String} {a : α}
  {described more : List (String × String × α)}

theorem ofTable_cons_self :
    ofTable table ((table, column, a) :: described) = (column, a) :: ofTable table described := by
  simp [ofTable]

theorem ofTable_cons_of_ne (hOther : other ≠ table) :
    ofTable table ((other, column, a) :: described) = ofTable table described := by
  simp [ofTable, hOther]

theorem ofTable_append :
    ofTable table (described ++ more) = ofTable table described ++ ofTable table more := by
  simp [ofTable]

theorem ofTable_map_self (listed : Entries α) :
    ofTable table (listed.map fun column => (table, column)) = listed := by
  induction listed with
  | nil => rfl
  | cons column rest ih => rw [List.map_cons, ofTable_cons_self, ih]

theorem ofTable_map_of_ne (hOther : other ≠ table) (listed : Entries α) :
    ofTable table (listed.map fun column => (other, column)) = [] := by
  induction listed with
  | nil => rfl
  | cons column rest ih => rw [List.map_cons, ofTable_cons_of_ne hOther, ih]

/-- Where no column of a table is described twice, no name of its columns is repeated. -/
theorem distinct_ofTable (hDescribed : (described.map fun column => (column.1, column.2.1)).Nodup)
    (table : String) : Entries.Distinct (ofTable table described) := by
  induction described with
  | nil => exact Entries.distinct_nil
  | cons column rest ih =>
      obtain ⟨other, name, a⟩ := column
      obtain ⟨hName, hRest⟩ := List.nodup_cons.mp hDescribed
      by_cases hTable : other = table
      · subst hTable
        rw [ofTable_cons_self, Entries.Distinct, Entries.keys_cons, List.nodup_cons]
        refine ⟨fun hMem => hName ?_, ih hRest⟩
        simpa [Entries.keys, ofTable] using hMem
      · rw [ofTable_cons_of_ne hTable]
        exact ih hRest

end OfTable

namespace ColumnTypes

variable {catalog : Catalog} {types : ColumnTypes}

/-- The described columns of a table with the names of their types. -/
def columnsOf (types : ColumnTypes) (table : String) : Entries String :=
  (types.lookup table).getD []

/-- Neither a table nor a column of a table is described twice. -/
structure Distinct (types : ColumnTypes) : Prop where
  tables : Entries.Distinct types
  columns : ∀ table columns, (table, columns) ∈ types → Entries.Distinct columns

theorem Distinct.columnsOf (hTypes : types.Distinct) (table : String) :
    Entries.Distinct (types.columnsOf table) := by
  unfold ColumnTypes.columnsOf
  cases hTable : types.lookup table with
  | none => exact Entries.distinct_nil
  | some columns => exact hTypes.columns table columns (Entries.mem_of_lookup hTable)

theorem distinct_of_readAs {text : String}
    (hTypes : Yaml.readAs ColumnTypes.decode text = .ok types) : types.Distinct := by
  unfold Yaml.readAs at hTypes
  cases hText : Yaml.read? text with
  | none => simp [hText] at hTypes
  | some d =>
      rw [hText] at hTypes
      obtain ⟨hTables, hColumns⟩ := Datum.mapOf_eq_ok (mapError_eq_ok_iff.mp hTypes)
      refine ⟨hTables, fun table columns hTable => ?_⟩
      obtain ⟨part, hPart⟩ := hColumns table columns hTable
      exact (Datum.mapOf_eq_ok hPart).1

/-- The catalog knows every type that the description names. -/
def Known (catalog : Catalog) (types : ColumnTypes) : Prop :=
  ∀ table columns, (table, columns) ∈ types →
    ∀ column typeName, (column, typeName) ∈ columns → catalog.contains typeName = true

/-- The first column with an unknown type in the first table that has one. -/
def firstUnknown? (catalog : Catalog) (types : ColumnTypes) : Option (String × String × String) :=
  types.findSome? fun (table, columns) =>
    (columns.find? fun column => !catalog.contains column.2).map fun column => (table, column)

theorem find?_columns : types.columns.find? (fun column => !catalog.contains column.2.2) =
    types.firstUnknown? catalog := by
  rw [columns, List.find?_flatMap, firstUnknown?]
  congr 1
  funext entry
  rw [List.find?_map]
  rfl

theorem firstUnknown?_eq_none_iff : types.firstUnknown? catalog = none ↔ types.Known catalog := by
  simp [firstUnknown?, Known]

theorem Known.of_mem_columnsOf (hKnown : types.Known catalog) {table : String}
    {column : String × String} (hColumn : column ∈ types.columnsOf table) :
    catalog.contains column.2 = true := by
  unfold columnsOf at hColumn
  cases hTable : types.lookup table with
  | none => simp [hTable] at hColumn
  | some columns =>
      rw [hTable] at hColumn
      exact hKnown table columns (Entries.mem_of_lookup hTable) column.1 column.2 hColumn

/-- The columns of a table are those that are listed with it. -/
theorem ofTable_columns (hTables : Entries.Distinct types) (table : String) :
    ofTable table types.columns = types.columnsOf table := by
  induction types with
  | nil => rfl
  | cons entry rest ih =>
      obtain ⟨name, listed⟩ := entry
      obtain ⟨hName, hRest⟩ := List.nodup_cons.mp hTables
      have hColumns : columns ((name, listed) :: rest) =
          listed.map (fun column => (name, column)) ++ columns rest := rfl
      rw [hColumns, ofTable_append, ih hRest]
      by_cases hHere : name = table
      · -- No other entry is about this table.
        subst hHere
        rw [ofTable_map_self, columnsOf, columnsOf, Entries.lookup_eq_none_iff.mpr hName]
        simp
      · have hOther : (table == name) = false := by simpa using Ne.symm hHere
        rw [ofTable_map_of_ne hHere, columnsOf, columnsOf, List.lookup_cons, hOther]
        rfl

end ColumnTypes

/-! ## Types by name -/

namespace Catalog

variable {catalog : Catalog} {named : Entries String}

/-- The columns whose types the catalog knows, with these types. -/
def typed (catalog : Catalog) (named : Entries String) : Entries TypeDescriptor :=
  named.filterMap fun column => (catalog.find? column.2).map fun type => (column.1, type)

theorem typed_cons_of_some {column typeName : String} {type : TypeDescriptor}
    (hType : catalog.find? typeName = some type) :
    catalog.typed ((column, typeName) :: named) = (column, type) :: catalog.typed named := by
  simp [typed, hType]

theorem typed_cons_of_none {column typeName : String} (hType : catalog.find? typeName = none) :
    catalog.typed ((column, typeName) :: named) = catalog.typed named := by
  simp [typed, hType]

theorem keys_typed : Entries.keys (catalog.typed named) =
    Entries.keys (named.filter fun column => catalog.contains column.2) := by
  induction named with
  | nil => rfl
  | cons described rest ih =>
      obtain ⟨column, typeName⟩ := described
      cases hType : catalog.find? typeName with
      | none =>
          rw [typed_cons_of_none hType, ih,
            List.filter_cons_of_neg (by simp [contains, hType])]
      | some type =>
          rw [typed_cons_of_some hType, List.filter_cons_of_pos (by simp [contains, hType]),
            Entries.keys_cons, Entries.keys_cons, ih]

theorem distinct_typed (hNamed : Entries.Distinct named) :
    Entries.Distinct (catalog.typed named) := by
  rw [Entries.Distinct, keys_typed]
  exact hNamed.sublist (List.filter_sublist.map Prod.fst)

theorem lookup_typed (hNamed : Entries.Distinct named) (column : String) :
    (catalog.typed named).lookup column = (named.lookup column).bind catalog.find? := by
  apply Option.ext
  intro type
  rw [← Entries.mem_iff_lookup (distinct_typed hNamed), Option.bind_eq_some_iff]
  constructor
  · intro hColumn
    obtain ⟨⟨name, typeName⟩, hListed, hType⟩ := List.mem_filterMap.mp hColumn
    obtain ⟨_, hFound, hPair⟩ := Option.map_eq_some_iff.mp hType
    obtain ⟨rfl, rfl⟩ := Prod.mk.inj hPair
    exact ⟨typeName, (Entries.mem_iff_lookup hNamed).mp hListed, hFound⟩
  · rintro ⟨typeName, hListed, hFound⟩
    exact List.mem_filterMap.mpr
      ⟨(column, typeName), Entries.mem_of_lookup hListed, by rw [hFound]; rfl⟩

end Catalog

namespace BaseSchema

variable {catalog : Catalog} {schema : BaseSchema} {host named : List (String × String × String)}
  {types : ColumnTypes} {table column : String}

/-! ## Columns described in turn -/

theorem columns_insert_self (type : TypeDescriptor) :
    (schema.insert table column type).columns table =
      Entries.insert column type (schema.columns table) := by
  rw [columns, insert, Entries.lookup_update_self]
  rfl

theorem columns_insert_of_ne {other : String} (hOther : other ≠ table) (type : TypeDescriptor) :
    (schema.insert table column type).columns other = schema.columns other := by
  rw [columns, insert, Entries.lookup_update_of_ne hOther]
  rfl

/-- Describe columns in turn, those of unknown types left out. -/
def insertKnown (catalog : Catalog) (schema : BaseSchema)
    (named : List (String × String × String)) : BaseSchema :=
  named.foldl
    (fun schema (table, column, typeName) =>
      match catalog.find? typeName with
      | some type => schema.insert table column type
      | none => schema)
    schema

theorem hostDefaults_eq : hostDefaults catalog = empty.insertKnown catalog hostColumns := rfl

section InsertKnown

variable {type : TypeDescriptor} {typeName : String} {rest : List (String × String × String)}

theorem insertKnown_cons_of_some (hType : catalog.find? typeName = some type) :
    schema.insertKnown catalog ((table, column, typeName) :: rest) =
      (schema.insert table column type).insertKnown catalog rest := by
  simp [insertKnown, hType]

theorem insertKnown_cons_of_none (hType : catalog.find? typeName = none) :
    schema.insertKnown catalog ((table, column, typeName) :: rest) =
      schema.insertKnown catalog rest := by
  simp [insertKnown, hType]

end InsertKnown

/-- The columns of a table are written over those that it had. -/
theorem columns_insertKnown (table : String) :
    (schema.insertKnown catalog named).columns table =
      Entries.insertAll (schema.columns table) (catalog.typed (ofTable table named)) := by
  induction named generalizing schema with
  | nil => rfl
  | cons described rest ih =>
      obtain ⟨other, column, typeName⟩ := described
      cases hType : catalog.find? typeName with
      | none =>
          rw [insertKnown_cons_of_none hType, ih]
          by_cases hTable : other = table
          · subst hTable
            rw [ofTable_cons_self, Catalog.typed_cons_of_none hType]
          · rw [ofTable_cons_of_ne hTable]
      | some type =>
          rw [insertKnown_cons_of_some hType, ih]
          by_cases hTable : other = table
          · subst hTable
            rw [ofTable_cons_self, Catalog.typed_cons_of_some hType, columns_insert_self]
            rfl
          · rw [ofTable_cons_of_ne hTable, columns_insert_of_ne (Ne.symm hTable)]

/-- The columns of a file are added in turn, unless one of them has an unknown type. -/
theorem extend_eq : schema.extend catalog types =
    match types.firstUnknown? catalog with
    | some (table, column, typeName) => .error (.unknownColumnType table column typeName)
    | none => .ok (schema.insertKnown catalog types.columns) := by
  rw [extend, ← ColumnTypes.find?_columns]
  induction types.columns generalizing schema with
  | nil => rfl
  | cons described rest ih =>
      obtain ⟨table, column, typeName⟩ := described
      rw [List.foldlM_cons]
      cases hType : catalog.find? typeName with
      | none =>
          rw [List.find?_cons_of_pos (by simp [Catalog.contains, hType])]
          show (schema.insertNamed catalog table column typeName >>= _) = _
          rw [insertNamed, hType]
          rfl
      | some type =>
          rw [List.find?_cons_of_neg (by simp [Catalog.contains, hType]),
            insertKnown_cons_of_some hType]
          show (schema.insertNamed catalog table column typeName >>= _) = _
          rw [insertNamed, hType]
          exact ih

/-! ## Columns laid over host columns -/

/-- The names of the columns of a table whose types the catalog knows, in order. -/
def knownNames (catalog : Catalog) (named : List (String × String × String)) (table : String) :
    List String :=
  Entries.keys ((ofTable table named).filter fun column => catalog.contains column.2)

/-- The schema has the columns of a file over host columns. -/
structure Overlays (catalog : Catalog) (host : List (String × String × String))
    (types : ColumnTypes) (schema : BaseSchema) : Prop where
  /-- A column has the type that the file names, or else that of the host column. -/
  get? : ∀ table column, schema.get? table column =
    match (types.columnsOf table).lookup column with
    | some typeName => catalog.find? typeName
    | none => ((ofTable table host).lookup column).bind catalog.find?
  /-- The host columns come first, and the new columns of the file follow. -/
  keys_columns : ∀ table, Entries.keys (schema.columns table) =
    knownNames catalog host table ++
      (Entries.keys (types.columnsOf table)).filter (· ∉ knownNames catalog host table)
  /-- The columns are listed with the types that are found. -/
  get?_of_mem : ∀ table column type, (column, type) ∈ schema.columns table →
    schema.get? table column = some type

/-- What comes of laying the columns of a file over host columns. -/
structure LaysOver (catalog : Catalog) (host : List (String × String × String))
    (types : ColumnTypes) (outcome : Except LoadError BaseSchema) : Prop where
  exists_ok_iff : (∃ schema, outcome = .ok schema) ↔ types.Known catalog
  overlays : ∀ schema, outcome = .ok schema → schema.Overlays catalog host types
  error_iff : ∀ error, outcome = .error error ↔
    ∃ table column typeName, types.firstUnknown? catalog = some (table, column, typeName) ∧
      error = .unknownColumnType table column typeName

/-- No host column is described twice. -/
theorem nodup_hostColumns :
    (hostColumns.map fun column => (column.1, column.2.1)).Nodup := by
  decide

/-- Known columns that are described after host columns are laid over them. -/
theorem overlays_of_known (hHost : (host.map fun column => (column.1, column.2.1)).Nodup)
    (hTypes : types.Distinct) (hKnown : types.Known catalog) :
    ((empty.insertKnown catalog host).insertKnown catalog types.columns).Overlays catalog host
      types := by
  have hBase table : Entries.Distinct (catalog.typed (ofTable table host)) :=
    Catalog.distinct_typed (distinct_ofTable hHost table)
  have hOver table : Entries.Distinct (catalog.typed (types.columnsOf table)) :=
    Catalog.distinct_typed (hTypes.columnsOf table)
  have hColumns table :
      ((empty.insertKnown catalog host).insertKnown catalog types.columns).columns table =
        Entries.insertAll (catalog.typed (ofTable table host))
          (catalog.typed (types.columnsOf table)) := by
    rw [columns_insertKnown, columns_insertKnown, ColumnTypes.ofTable_columns hTypes.tables]
    exact congrArg (Entries.insertAll · _) (Entries.ofList_eq_self (hBase table))
  refine ⟨fun table column => ?_, fun table => ?_, fun table column type hListed => ?_⟩
  · rw [get?, hColumns, Entries.lookup_insertAll_of_distinct (hOver table),
      Catalog.lookup_typed (hTypes.columnsOf table),
      Catalog.lookup_typed (distinct_ofTable hHost table)]
    cases hColumn : (types.columnsOf table).lookup column with
    | none => rfl
    | some typeName =>
        have hType := hKnown.of_mem_columnsOf (Entries.mem_of_lookup hColumn)
        rw [Option.bind_some, Option.or_of_isSome hType]
  · have hAll : (types.columnsOf table).filter (fun column => catalog.contains column.2) =
        types.columnsOf table :=
      List.filter_eq_self.mpr fun _ hColumn => hKnown.of_mem_columnsOf hColumn
    rw [hColumns, Entries.insertAll_eq_mergeWith,
      Entries.keys_mergeWith (hBase table) (hOver table), Catalog.keys_typed, Catalog.keys_typed,
      hAll]
    rfl
  · rw [hColumns] at hListed
    rw [get?, hColumns]
    exact (Entries.mem_iff_lookup (Entries.distinct_insertAll (hBase table))).mp hListed

/-- What comes of adding the columns of a file to host columns. -/
theorem laysOver_extend (hHost : (host.map fun column => (column.1, column.2.1)).Nodup)
    (hTypes : types.Distinct) :
    LaysOver catalog host types ((empty.insertKnown catalog host).extend catalog types) := by
  rw [extend_eq]
  cases hUnknown : types.firstUnknown? catalog with
  | none =>
      have hKnown := ColumnTypes.firstUnknown?_eq_none_iff.mp hUnknown
      refine ⟨⟨fun _ => hKnown, fun _ => ⟨_, rfl⟩⟩, ?_, fun error => ?_⟩
      · rintro _ ⟨⟩
        exact overlays_of_known hHost hTypes hKnown
      · simp [hUnknown]
  | some column =>
      obtain ⟨table, column, typeName⟩ := column
      have hNot : ¬types.Known catalog := by
        rw [← ColumnTypes.firstUnknown?_eq_none_iff, hUnknown]
        simp
      refine ⟨⟨?_, fun hKnown => absurd hKnown hNot⟩, ?_, fun error => ?_⟩
      · rintro ⟨_, ⟨⟩⟩
      · rintro _ ⟨⟩
      · simp [hUnknown, eq_comm]

/-- A text that describes columns is read before they are added. -/
theorem extendByText_eq {path text : String}
    (hTypes : Yaml.readAs ColumnTypes.decode text = .ok types) :
    schema.extendByText catalog path text = schema.extend catalog types := by
  rw [extendByText, hTypes]
  rfl

/-- A file is read and added to the host columns. -/
theorem on_load_eq {tree : FileTree} {path text : String} (hText : tree.HasText path text) :
    Load.on tree (load catalog path) = (hostDefaults catalog).extendByText catalog path text := by
  unfold load
  rw [Load.on_bind (Load.readOnly_text path), Load.on_text, bind_textOf_eq_ok_iff.mpr hText]
  rfl

/-- **Existing columns.**  A file that describes columns is loaded exactly if the catalog
knows all types that it names.  Its columns are then laid over the host columns whose
types are known: a column has the type that the file names for it, or else that of the
host column, and new columns follow those of the host.  If a type is unknown, the first
column that has such a type is the error.  A text comes to the same without any host
columns. -/
theorem laysOver_of_readAs {tree : FileTree} {path text : String} (hText : tree.HasText path text)
    (hTypes : Yaml.readAs ColumnTypes.decode text = .ok types) :
    LaysOver catalog hostColumns types (Load.on tree (load catalog path)) ∧
      LaysOver catalog [] types (ofText catalog text) := by
  have hDistinct := ColumnTypes.distinct_of_readAs hTypes
  constructor
  · rw [on_load_eq hText, extendByText_eq hTypes, hostDefaults_eq]
    exact laysOver_extend nodup_hostColumns hDistinct
  · rw [ofText, extendByText_eq hTypes]
    exact laysOver_extend List.nodup_nil hDistinct

/-- The text of a description that has a new column of a host table, another type for a
host column, and a table of its own. -/
def newsText : String :=
  "tt_content:\n  teaser: Text\n  header: Textarea\ntx_news:\n  title: Text\n"

/-- What that text describes. -/
def newsTypes : ColumnTypes :=
  [ ("tt_content", [("teaser", "Text"), ("header", "Textarea")]),
    ("tx_news", [("title", "Text")]) ]

/-- A catalog without most of the types of the host columns. -/
def textCatalog : Catalog where
  types :=
    [ { name := "Text", storage := .input, searchable := true },
      { name := "Textarea", storage := .text, searchable := true } ]

theorem laysOver_of_readAs_news :
    ∃ schema, Load.on (.directory [("base.yaml", .file newsText.toUTF8)])
        (load textCatalog "base.yaml") = .ok schema ∧
      Entries.keys (schema.columns "tt_content") = ["header", "subheader", "bodytext", "teaser"] ∧
      schema.get? "tt_content" "header" = textCatalog.find? "Textarea" ∧
      schema.get? "tt_content" "bodytext" = textCatalog.find? "Textarea" ∧
      schema.get? "tt_content" "CType" = none ∧
      ∃ alone, ofText textCatalog newsText = .ok alone ∧
        Entries.keys (alone.columns "tt_content") = ["teaser", "header"] := by
  have hTypes : Yaml.readAs ColumnTypes.decode newsText = .ok newsTypes := by
    cbv
  obtain ⟨hLoad, hText⟩ := @laysOver_of_readAs textCatalog newsTypes
    (.directory [("base.yaml", .file newsText.toUTF8)]) "base.yaml" newsText
    ⟨_, by rfl, by rfl⟩ hTypes
  have hKnown : newsTypes.Known textCatalog :=
    ColumnTypes.firstUnknown?_eq_none_iff.mp (by decide)
  obtain ⟨schema, hSchema⟩ := hLoad.exists_ok_iff.mpr hKnown
  obtain ⟨alone, hAlone⟩ := hText.exists_ok_iff.mpr hKnown
  have hOverlays := hLoad.overlays schema hSchema
  refine ⟨schema, hSchema, ?_, ?_, ?_, ?_, alone, hAlone, ?_⟩
  · exact (hOverlays.keys_columns "tt_content").trans (by decide)
  · exact hOverlays.get? "tt_content" "header"
  · exact hOverlays.get? "tt_content" "bodytext"
  · exact hOverlays.get? "tt_content" "CType"
  · exact ((hText.overlays alone hAlone).keys_columns "tt_content").trans (by decide)

end BaseSchema
end ContentSchema
