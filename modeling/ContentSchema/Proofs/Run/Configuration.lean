import ContentSchema.Proofs.Entries.Selection
import ContentSchema.Proofs.Run.Settings
import ContentSchema.Proofs.Run.Translations

/-!
# Configuration of fields

The configuration that a node is authored with reaches the field that it is
compiled into.  The compiler writes a few names of its own on top of it, and a
collection keeps the settings of its child table to itself; nothing else changes.

* `FieldNode.Overwrites` tells the names that the compiler writes.
* `FieldNode.CarriesConfig` compares the configuration of a node and of a field.
* `carriesConfig_of_compile` states it of every field of a successful run.

What a collection leaves out depends on its role, and what links it to a child
table on its storage.  The two do NOT have to go together.
-/

namespace ContentSchema

/-! ## Fields -/

/-- A collection leaves the settings of its child table out of its configuration. -/
def TypeDescriptor.Withholds (type : TypeDescriptor) (key : String) : Prop :=
  type.kind = .collection ∧ key ∈ TableSettings.names

namespace FieldNode

/-- The compiler writes the name into the configuration of the field that the node
is compiled into. -/
inductive Overwrites (node : FieldNode) (type : TypeDescriptor) : String → Prop where
  | dataStructure (hKind : type.kind = .flexForm) : Overwrites node type "ds"
  | items (hType : type.items ≠ .none) (hItems : node.items ≠ []) : Overwrites node type "items"
  | foreignTable (hStorage : type.storage = .inline) : Overwrites node type "foreign_table"
  | foreignField (hStorage : type.storage = .inline) : Overwrites node type "foreign_field"
  | foreignTableField (hStorage : type.storage = .inline)
      (hShared : node.shareAcrossTables = true) : Overwrites node type "foreign_table_field"
  | foreignMatchFields (hStorage : type.storage = .inline)
      (hShared : node.shareAcrossFields = true) : Overwrites node type "foreign_match_fields"

/-- What the configuration of a field has to do with that of its node. -/
structure CarriesConfig (node : FieldNode) (type : TypeDescriptor) (config : Entries Value) :
    Prop where
  withheld : ∀ key, type.Withholds key → config.lookup key = none
  /-- What the compiler does not write is there as authored, or missing as
  authored. -/
  carried : ∀ key, ¬type.Withholds key → ¬node.Overwrites type key →
    config.lookup key = node.config.lookup key
  /-- Every name is authored or written by the compiler. -/
  names : ∀ key, key ∈ Entries.keys config ↔
    node.Overwrites type key ∨ ¬type.Withholds key ∧ key ∈ Entries.keys node.config
  /-- No name is repeated unless it is authored twice. -/
  distinct : Entries.Distinct node.config → Entries.Distinct config

end FieldNode

namespace PassContext

variable {context : PassContext} {path : LanguagePath} {node : FieldNode}
  {type : TypeDescriptor} {unique key : String}

/-- What the compiler writes into the configuration of a field. -/
def writtenConfig (context : PassContext) (path : LanguagePath) (type : TypeDescriptor)
    (node : FieldNode) (unique : String) : Entries Value :=
  let position := path.push node.identifierText
  Value.entry? "ds" (context.structure? position type node)
    ++ Value.entry? "items" (registeredItems position node type)
    ++ (if type.storage = .inline then linkConfig node (node.table.getD unique) unique else [])

theorem config_compiledField :
    (context.compiledField path type node unique).config =
      Entries.insertAll (carriedConfig node type)
        (context.writtenConfig path type node unique) := by
  unfold compiledField writtenConfig
  by_cases hInline : type.storage = .inline
  · rw [if_pos hInline, if_pos hInline, ← Entries.insertAll_append]
    rfl
  · rw [if_neg hInline, if_neg hInline, List.append_nil]
    rfl

theorem mem_keys_entry?_iff {name : String} {value : Option Value} :
    key ∈ Entries.keys (Value.entry? name value) ↔ key = name ∧ value.isSome := by
  cases value <;> simp [Value.entry?]

theorem registeredItems_isSome_iff :
    (registeredItems path node type).isSome ↔ type.items ≠ .none ∧ node.items ≠ [] := by
  unfold registeredItems
  split
  case isTrue hNone =>
    simp only [Option.isSome_none, Bool.false_eq_true, false_iff, not_and, not_not]
    simpa [or_iff_not_imp_left] using hNone
  case isFalse hSome => simpa using hSome

/-- What the link of a collection writes depends on what it shares. -/
theorem mem_keys_linkConfig_iff {table : String} :
    key ∈ Entries.keys (linkConfig node table unique) ↔
      key = "foreign_table" ∨ key = "foreign_field" ∨
        (key = "foreign_table_field" ∧ node.shareAcrossTables = true) ∨
        key = "foreign_match_fields" ∧ node.shareAcrossFields = true := by
  unfold linkConfig
  cases node.shareAcrossTables <;> cases node.shareAcrossFields <;> simp [Entries.keys]

theorem mem_keys_writtenConfig_iff :
    key ∈ Entries.keys (context.writtenConfig path type node unique) ↔
      node.Overwrites type key := by
  have hSplit : key ∈ Entries.keys (context.writtenConfig path type node unique) ↔
      (key = "ds" ∧ type.kind = .flexForm ∨
        key = "items" ∧ type.items ≠ .none ∧ node.items ≠ []) ∨
      type.storage = .inline ∧
        key ∈ Entries.keys (linkConfig node (node.table.getD unique) unique) := by
    have hStructure : (context.structure? (path.push node.identifierText) type node).isSome ↔
        type.kind = .flexForm := by
      unfold structure?
      split <;> simpa
    unfold writtenConfig
    rw [Entries.keys, List.map_append, List.map_append, List.mem_append, List.mem_append]
    refine or_congr (or_congr ?_ ?_) ?_
    · exact mem_keys_entry?_iff.trans (and_congr_right fun _ => hStructure)
    · exact mem_keys_entry?_iff.trans (and_congr_right fun _ => registeredItems_isSome_iff)
    · by_cases hInline : type.storage = .inline <;> simp [hInline, Entries.keys]
  rw [hSplit, mem_keys_linkConfig_iff]
  constructor
  · rintro ((⟨rfl, hKind⟩ | ⟨rfl, hType, hItems⟩) |
      ⟨hStorage, rfl | rfl | ⟨rfl, hShared⟩ | ⟨rfl, hShared⟩⟩)
    · exact .dataStructure hKind
    · exact .items hType hItems
    · exact .foreignTable hStorage
    · exact .foreignField hStorage
    · exact .foreignTableField hStorage hShared
    · exact .foreignMatchFields hStorage hShared
  · intro hWrites
    cases hWrites <;> simp_all

/-- The compiler writes no setting of a table. -/
theorem not_mem_names_of_overwrites (hWrites : node.Overwrites type key) :
    key ∉ TableSettings.names := by
  cases hWrites <;> decide

/-- What a field carries over before the compiler writes anything. -/
theorem lookup_carriedConfig (type : TypeDescriptor) (node : FieldNode) (key : String) :
    ((type.Withholds key → (carriedConfig node type).lookup key = none)) ∧
      (¬type.Withholds key → (carriedConfig node type).lookup key = node.config.lookup key) := by
  have hLookup := Entries.lookup_filter_name
    (fun key => type.kind ≠ .collection || !TableSettings.names.contains key) node.config key
  unfold carriedConfig
  rw [hLookup]
  constructor
  · rintro ⟨hKind, hName⟩
    simp [hKind, hName]
  · intro hKept
    rw [if_pos]
    simpa [TypeDescriptor.Withholds, imp_iff_not_or] using hKept

theorem mem_keys_carriedConfig_iff :
    key ∈ Entries.keys (carriedConfig node type) ↔
      ¬type.Withholds key ∧ key ∈ Entries.keys node.config := by
  obtain ⟨hWithheld, hCarried⟩ := lookup_carriedConfig type node key
  rw [Entries.mem_keys_iff]
  by_cases hKey : type.Withholds key
  · simp [hWithheld hKey, hKey]
  · rw [hCarried hKey, ← Entries.mem_keys_iff, and_iff_right hKey]

theorem carriesConfig_compiledField :
    node.CarriesConfig type (context.compiledField path type node unique).config where
  withheld := by
    intro key hKey
    -- The compiler does not bring a setting back that it has left out.
    have hFree : key ∉ Entries.keys (context.writtenConfig path type node unique) := by
      intro hWritten
      exact not_mem_names_of_overwrites (mem_keys_writtenConfig_iff.mp hWritten) hKey.2
    rw [config_compiledField, Entries.lookup_insertAll_of_not_mem hFree]
    exact (lookup_carriedConfig type node key).1 hKey
  carried := by
    intro key hKey hFree
    have hUnwritten : key ∉ Entries.keys (context.writtenConfig path type node unique) :=
      mt mem_keys_writtenConfig_iff.mp hFree
    rw [config_compiledField, Entries.lookup_insertAll_of_not_mem hUnwritten]
    exact (lookup_carriedConfig type node key).2 hKey
  names := by
    intro key
    rw [config_compiledField, Entries.mem_keys_insertAll_iff, mem_keys_writtenConfig_iff,
      mem_keys_carriedConfig_iff, or_comm]
  distinct := fun hNode => distinct_config_compiledField hNode type unique

end PassContext

/-! ## Passes -/

namespace Pass

/-- The field carries the configuration of the node of the pass that it is made
of. -/
def Carries (pass : Pass) (field : CompiledField) : Prop :=
  ∃ node ∈ pass.site.fields, node.identifierText = field.identifier ∧
    pass.context.typeOf? node = some field.fieldType ∧
    node.CarriesConfig field.fieldType field.config

variable {pass : Pass}

theorem Compiled.carries (hPass : pass.Compiled) {key : String} {field : CompiledField}
    (hField : pass.table.fields.lookup key = some field) : pass.Carries field := by
  obtain ⟨node, hNode, _, type, hType, rfl⟩ := hPass.exists_node_of_lookup hField
  have hConfig : node.CarriesConfig type
      (pass.context.compiledField pass.path type node key).config :=
    PassContext.carriesConfig_compiledField
  obtain ⟨config, hMade⟩ := pass.context.exists_compiledField_eq pass.path type node key
  rw [hMade] at hConfig ⊢
  exact ⟨node, hNode, rfl, hType, hConfig⟩

end Pass

section Run

variable {environment : Environment} {documents : List SchemaDocument} {result : CompiledResult}

/-- Every field that a pass of a successful run lists carries the configuration of
its node, and so does every column that a content type of the result overrides. -/
theorem carriesConfig_of_compile (hResult : compile environment documents = .ok result) :
    (∀ pass ∈ (runWalk environment documents).emission.passes, ∀ key field,
      pass.table.fields.lookup key = some field → pass.Carries field) ∧
    ∀ name table, (name, table) ∈ result.tables → ∀ contentType ∈ table.contentTypes,
      ∃ pass ∈ (runWalk environment documents).emission.passes,
        contentType = pass.contentType ∧
          ∀ column ∈ contentType.overrideColumns, pass.Carries column := by
  refine ⟨fun pass hPass _ _ hField => (compiled_of_mem_passes hPass).carries hField, ?_⟩
  intro name table hTable contentType hType
  rw [(laidOver_of_mem_tables hResult hTable).2] at hType
  obtain ⟨pass, hOn, rfl⟩ := List.mem_map.mp hType
  have hPass := (List.mem_filter.mp hOn).1
  have hCompiled := compiled_of_mem_passes hPass
  refine ⟨pass, hPass, rfl, ?_⟩
  intro column hColumn
  exact hCompiled.carries (hCompiled.lookup_of_mem_overrideColumns hColumn)

end Run

/-- A document whose fields are configured under names that the compiler or a table
writes as well. -/
def roster : SchemaDocument where
  name := "acme/roster"
  fields :=
    [ { FieldNode.ofType "size" "Select" with
        items := [{ label := some "Small" }]
        config := [("ds", .string "none"), ("sortable", .bool true)] },
      { FieldNode.ofType "members" "Collection" with
        shareAcrossTables := true
        config := [("sortable", .bool true), ("maxitems", .int 5), ("foreign_field", .null)]
        fields := [.ofType "name" "Text"] } ]

/-- The names in the configuration of both fields, and the rule at each of them. -/
theorem carriesConfig_of_compile_roster :
    ∃ result table contentType, compile leafletEnvironment [roster] = .ok result ∧
      ("tt_content", table) ∈ result.tables ∧ contentType ∈ table.contentTypes ∧
      (contentType.overrideColumns.map fun column => Entries.keys column.config) =
        [["ds", "sortable", "items"],
          ["maxitems", "foreign_field", "foreign_table", "foreign_table_field"]] ∧
      ∃ pass ∈ (runWalk leafletEnvironment [roster]).emission.passes,
        ∀ column ∈ contentType.overrideColumns, pass.Carries column := by
  have hNames : (compile leafletEnvironment [roster]).toOption.bind (fun result =>
      (result.tables.lookup "tt_content").map fun table =>
        table.contentTypes.map fun contentType =>
          contentType.overrideColumns.map fun column => Entries.keys column.config) =
      some [[["ds", "sortable", "items"],
        ["maxitems", "foreign_field", "foreign_table", "foreign_table_field"]]] := by
    decide +kernel
  obtain ⟨result, hSome, hTables⟩ := Option.bind_eq_some_iff.mp hNames
  obtain ⟨table, hLookup, hTypes⟩ := Option.map_eq_some_iff.mp hTables
  obtain ⟨contentType, hOnly, hColumns⟩ := List.map_eq_singleton_iff.mp hTypes
  have hResult := eq_ok_of_toOption_eq_some hSome
  have hTable := Entries.mem_of_lookup hLookup
  have hType : contentType ∈ table.contentTypes := by
    rw [hOnly]
    exact List.mem_singleton.mpr rfl
  obtain ⟨pass, hPass, _, hCarries⟩ :=
    (carriesConfig_of_compile hResult).2 "tt_content" table hTable contentType hType
  exact ⟨result, table, contentType, hResult, hTable, hType, hColumns, pass, hPass, hCarries⟩

end ContentSchema
