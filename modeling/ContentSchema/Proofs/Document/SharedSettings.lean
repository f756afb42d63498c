import ContentSchema.Proofs.Document.RoundTrip

/-!
# Settings of documents and of collections

A document lists its table settings among its own attributes, and a collection
lists those of its child table among its configuration.  Both are read by name, so
the same settings are read of the same entries wherever these stand and in
whatever order they come.

* `SchemaDocument.decode_eq_ok_iff_of_settings` is about documents that consist of a
  name and of settings.
* `decode_settings_iff_tableSettings` compares such a document with a collection.

What is wrong with settings is NOT reported alike: of several faults one is named,
and which one depends on the order of the entries.
-/

namespace ContentSchema

open Datum (Slots)

/-! ## Documents and collections -/

variable {written settings others : Entries Value}

/-- A document that consists of a name and of settings, in whatever order, is read
when the settings are, and as a document of this name with these settings. -/
theorem SchemaDocument.decode_eq_ok_iff_of_settings {name : String}
    (hSettings : ∀ key ∈ Entries.keys settings, key ∈ TableSettings.names)
    (hWritten : written.Perm (("name", .string name) :: settings)) {document : SchemaDocument} :
    decode (.ofValue (.object written)) = .ok document ↔
      ∃ read, TableSettings.decodeEntries (Entries.mapValues Datum.ofValue settings) = .ok read ∧
        document = { name, settings := read } := by
  -- No setting has the name of an attribute, so the name is the only attribute there is.
  have hApart : ∀ key ∈ Entries.keys settings, key ∉ fieldNames :=
    fun key hKey => not_mem_fieldNames_of_mem_names (hSettings key hKey)
  have hFirst : ∀ key ∈ Entries.keys [("name", Value.string name)], key ∈ fieldNames := by
    intro key hKey
    rw [List.mem_singleton.mp hKey]
    show "name" ∈ fieldNames
    decide
  have hAmong : Entries.among fieldNames written = [("name", .string name)] := by
    have hPerm := hWritten.filter fun entry => fieldNames.contains entry.1
    rw [← List.perm_singleton, ← Entries.among_append hFirst hApart]
    exact hPerm
  have hOutside : (Entries.outside fieldNames written).Perm settings := by
    have hPerm := hWritten.filter fun entry => !fieldNames.contains entry.1
    rw [← Entries.outside_append hFirst hApart]
    exact hPerm
  have hSame {read : TableSettings} :
      TableSettings.decodeEntries
          (Entries.mapValues Datum.ofValue (Entries.outside fieldNames written)) = .ok read ↔
        TableSettings.decodeEntries (Entries.mapValues Datum.ofValue settings) = .ok read :=
    TableSettings.decodeEntries_perm ((hOutside.map _).filter _)
  have hSlots : Slots.ofWritten fieldNames written =
      { found := [("name", .ofValue (.string name))] } := by
    rw [Slots.ofWritten, hAmong]
    rfl
  have hMade {read : TableSettings} (hRead : TableSettings.decodeEntries
      (Entries.mapValues Datum.ofValue settings) = .ok read) :
      decode (.ofValue (.object written)) = .ok { name, settings := read } := by
    refine decode_eq_ok_iff.mpr ⟨written, rfl, ?_, ?_⟩
    · rw [hAmong]
      exact List.nodup_singleton _
    · rw [hSlots]
      exact ⟨rfl, rfl, rfl, rfl, ⟨none, rfl, rfl⟩, rfl, rfl, rfl, rfl, rfl, rfl, rfl, rfl, rfl, rfl,
        rfl, hSame.mpr hRead⟩
  constructor
  · intro hDocument
    obtain ⟨_, hObject, _, hRead⟩ := decode_eq_ok_iff.mp hDocument
    cases hObject
    have hHere := hSame.mp hRead.settings
    exact ⟨_, hHere, Except.ok.inj (hDocument.symm.trans (hMade hHere))⟩
  · rintro ⟨read, hRead, rfl⟩
    exact hMade hRead

/-- The table settings of a node are read of the settings in its configuration,
whatever stands between them. -/
theorem FieldNode.tableSettings_eq_ok_iff_of_config {node : FieldNode}
    (hSettings : ∀ key ∈ Entries.keys settings, key ∈ TableSettings.names)
    (hOthers : ∀ key ∈ Entries.keys others, key ∉ TableSettings.names)
    (hConfig : node.config.Perm (settings ++ others)) {read : TableSettings} :
    node.tableSettings = .ok read ↔
      TableSettings.decodeEntries (Entries.mapValues Datum.ofValue settings) = .ok read := by
  have hAmong : (Entries.among TableSettings.names node.config).Perm settings := by
    have hPerm := hConfig.filter fun entry => TableSettings.names.contains entry.1
    rw [← Entries.among_append hSettings hOthers]
    exact hPerm
  exact TableSettings.decodeEntries_perm ((hAmong.map _).filter _)

/-- **Shared settings.**  A document that consists of a name and of settings is read
exactly if the settings of a collection are that lists the same ones among other
configuration, and the settings of both are the same. -/
theorem decode_settings_iff_tableSettings {node : FieldNode} {name : String}
    (hSettings : ∀ key ∈ Entries.keys settings, key ∈ TableSettings.names)
    (hOthers : ∀ key ∈ Entries.keys others, key ∉ TableSettings.names)
    (hWritten : written.Perm (("name", .string name) :: settings))
    (hConfig : node.config.Perm (settings ++ others)) :
    ((∃ document, SchemaDocument.decode (.ofValue (.object written)) = .ok document) ↔
      ∃ read, node.tableSettings = .ok read) ∧
    ∀ document, SchemaDocument.decode (.ofValue (.object written)) = .ok document →
      node.tableSettings = .ok document.settings := by
  simp only [SchemaDocument.decode_eq_ok_iff_of_settings hSettings hWritten,
    FieldNode.tableSettings_eq_ok_iff_of_config hSettings hOthers hConfig]
  constructor
  · constructor
    · rintro ⟨_, read, hRead, _⟩
      exact ⟨read, hRead⟩
    · rintro ⟨read, hRead⟩
      exact ⟨_, read, hRead, rfl⟩
  · rintro _ ⟨read, hRead, rfl⟩
    exact hRead

/-- Settings of a table, one of them null. -/
def shelfSettings : Entries Value :=
  [("sortField", .list [.object [("identifier", .string "title"), ("order", .string "desc")]]),
    ("rootLevelType", .null),
    ("languageAware", .bool true)]

/-- A collection with the same settings in another order, and with more
configuration between them. -/
def shelf : FieldNode :=
  { FieldNode.ofType "books" "Collection" with
    config :=
      [("languageAware", .bool true),
        ("maxitems", .int 5),
        ("sortField",
          .list [.object [("identifier", .string "title"), ("order", .string "desc")]]),
        ("rootLevelType", .null)] }

/-- The document and the collection have the same settings. -/
theorem decode_settings_iff_tableSettings_shelf :
    ∃ document, SchemaDocument.decode
        (.ofValue (.object (("name", .string "acme/shelf") :: shelfSettings))) = .ok document ∧
      shelf.tableSettings = .ok document.settings ∧
      document.settings.sortField = some (.multiple [⟨"title", some "desc"⟩]) ∧
      document.settings.capabilities.declared .languageAware = some true := by
  have hConfig : shelf.config.Perm (shelfSettings ++ [("maxitems", .int 5)]) :=
    @List.perm_append_comm _ [("languageAware", Value.bool true), ("maxitems", Value.int 5)]
      (shelfSettings.take 2)
  obtain ⟨document, hDocument, hSort, hAware⟩ : ∃ document, SchemaDocument.decode
      (.ofValue (.object (("name", .string "acme/shelf") :: shelfSettings))) = .ok document ∧
        document.settings.sortField = some (.multiple [⟨"title", some "desc"⟩]) ∧
        document.settings.capabilities.declared .languageAware = some true :=
    ⟨_, rfl, rfl, rfl⟩
  obtain ⟨_, hSame⟩ := decode_settings_iff_tableSettings (by decide) (by decide) (.refl _) hConfig
  exact ⟨document, hDocument, hSame document hDocument, hSort, hAware⟩

end ContentSchema
