import ContentSchema.Proofs.Run.Sites

/-!
# What a result lists

A result lists the keys of each document, the references to each table and the
content types of each table in the order in which the run came to them, and its
tables in the order in which the run opened them.

* `get_languageKeys`, `referencesTo_of_compile` and `contentTypesOf_of_compile`
  read one list of a result off the walk of the run.
* `table?_of_compile` does so for the definition of a table.
* `keys_tables_of_compile` says which tables there are, and in which order.

The tables do NOT stand in the order in which their passes finished: the table of
a collection is opened after the one that the collection is in, but finished
before it.
-/

namespace ContentSchema

namespace CompiledResult

/-- The content types of a table. -/
def contentTypesOf (result : CompiledResult) (table : String) : List ContentType :=
  ((result.table? table).map TableDefinition.contentTypes).getD []

/-- The collection fields that refer to a table. -/
def referencesTo (result : CompiledResult) (table : String) : List CompiledField :=
  (result.parentReferences.lookup table).getD []

end CompiledResult

namespace Emission

/-- Where the tables opened are those of the passes, something is contributed to
each of them. -/
theorem keys_contributions {emission : Emission}
    (hOpened : emission.opened.Perm (emission.passes.map fun pass => pass.context.table)) :
    Entries.keys emission.contributions = emission.opened.eraseDups := by
  have hFirst : Entries.keys (emission.opened.foldl
      (fun tables table => Entries.insertNew table ({} : Contributions) tables) []) =
        emission.opened.eraseDups := by
    show Entries.keys (Entries.updateAll id (fun _ present => present.getD {}) emission.opened
      ([] : Entries Contributions)) = _
    rw [Entries.keys_updateAll Entries.distinct_nil]
    simp
  have hAll : ∀ table ∈ emission.passes.map fun pass => pass.context.table,
      table ∈ emission.opened.eraseDups := by
    intro table hTable
    rw [List.mem_eraseDups]
    exact hOpened.mem_iff.mpr hTable
  rw [contributions_eq_updateAll, Entries.keys_updateAll emission.distinct_opened, hFirst,
    Entries.eraseDups_append_of_subset hAll,
    Entries.eraseDups_eq_self (Entries.nodup_eraseDups _)]

/-- Something is contributed to every table that is a table of a pass. -/
theorem tables_ne_nil_of_mem_contributions {emission : Emission}
    (hOpened : emission.opened.Perm (emission.passes.map fun pass => pass.context.table))
    {entry : String × Contributions} (hEntry : entry ∈ emission.contributions) :
    entry.2.tables ≠ [] := by
  obtain ⟨table, contributed⟩ := entry
  have hKey : table ∈ emission.opened := by
    rw [← List.mem_eraseDups, ← keys_contributions hOpened]
    exact List.mem_map_of_mem hEntry
  obtain ⟨pass, hPass, rfl⟩ := List.mem_map.mp (hOpened.mem_iff.mp hKey)
  have hLookup := (Entries.mem_iff_lookup emission.distinct_contributions).mp hEntry
  have hOn : pass ∈ emission.passesOn pass.context.table :=
    List.mem_filter.mpr ⟨hPass, decide_eq_true rfl⟩
  show contributed.tables ≠ []
  rw [lookup_contributions hLookup]
  exact List.ne_nil_of_mem (List.mem_map_of_mem hOn)

/-- Where the tables opened are those of the passes, each of them is merged. -/
theorem keys_mergeTables_contributions {emission : Emission}
    (hOpened : emission.opened.Perm (emission.passes.map fun pass => pass.context.table)) :
    Entries.keys (mergeTables emission.contributions) = emission.opened.eraseDups := by
  have hAll : (emission.contributions.filter fun entry => !entry.2.tables.isEmpty) =
      emission.contributions := by
    rw [List.filter_eq_self]
    intro entry hEntry
    simpa using tables_ne_nil_of_mem_contributions hOpened hEntry
  rw [keys_mergeTables, hAll, keys_contributions hOpened]

/-- The merged definition of a table is made of what its passes contribute. -/
theorem lookup_mergeTables_contributions (emission : Emission) (table : String) :
    (mergeTables emission.contributions).lookup table =
      (emission.contributionsTo table).merged? := by
  rw [lookup_mergeTables_of_distinct emission.distinct_contributions]
  cases hLookup : emission.contributions.lookup table with
  | some contributed =>
      rw [lookup_contributions hLookup]
      rfl
  | none =>
      have hNone : emission.passesOn table = [] := by
        rw [passesOn, List.filter_eq_nil_iff]
        intro pass hPass hTable
        obtain ⟨contributed, hContributed⟩ := exists_lookup_contributions hPass
        rw [of_decide_eq_true hTable, hLookup] at hContributed
        contradiction
      rw [contributionsTo, hNone]
      rfl

end Emission

section Run

variable {environment : Environment} {documents : List SchemaDocument} {result : CompiledResult}

/-- A result lists under a name what was registered for it, in order. -/
theorem get_languageKeys (hResult : compile environment documents = .ok result) (name : String) :
    result.languageKeys.get name =
      ((runWalk environment documents).emission.keys.filter fun entry => entry.1 = name).map
        Prod.snd := by
  obtain ⟨_, rfl⟩ := compile_eq_ok_iff.mp hResult
  exact Entries.getD_lookup_appendAll (runWalk environment documents).emission.keys name

theorem mem_get_languageKeys_iff (hResult : compile environment documents = .ok result)
    {name : String} {key : LanguageKey} :
    key ∈ result.languageKeys.get name ↔
      (name, key) ∈ (runWalk environment documents).emission.keys := by
  rw [get_languageKeys hResult]
  simp

/-- A result lists under a table the references to it, in order. -/
theorem referencesTo_of_compile (hResult : compile environment documents = .ok result)
    (table : String) :
    result.referencesTo table =
      ((runWalk environment documents).emission.references.filter fun entry =>
        entry.1 = table).map Prod.snd := by
  obtain ⟨_, rfl⟩ := compile_eq_ok_iff.mp hResult
  exact Entries.getD_lookup_appendAll (runWalk environment documents).emission.references table

/-- The definition of a table is merged from what its passes contribute. -/
theorem table?_of_compile (hResult : compile environment documents = .ok result)
    (table : String) :
    result.table? table =
      ((runWalk environment documents).emission.contributionsTo table).merged? := by
  obtain ⟨_, rfl⟩ := compile_eq_ok_iff.mp hResult
  exact Emission.lookup_mergeTables_contributions _ table

/-- A result lists the content types of the passes on a table, in order. -/
theorem contentTypesOf_of_compile (hResult : compile environment documents = .ok result)
    (table : String) :
    result.contentTypesOf table =
      ((runWalk environment documents).emission.passesOn table).map Pass.contentType := by
  rw [CompiledResult.contentTypesOf, table?_of_compile hResult]
  exact Contributions.getD_contentTypes_merged? (by simp [Emission.contributionsTo])

/-- A result lists the tables in the order in which they were opened. -/
theorem keys_tables_of_compile (hResult : compile environment documents = .ok result) :
    Entries.keys result.tables =
      (runWalk environment documents).emission.opened.eraseDups := by
  obtain ⟨hRun, rfl⟩ := compile_eq_ok_iff.mp hResult
  exact Emission.keys_mergeTables_contributions (perm_opened hRun)

end Run

end ContentSchema
