import ContentSchema.Proofs.Definition.Precedence
import ContentSchema.Proofs.Pass.Items

/-!
# Tables of a run

The tables of a result are told from the passes of the run: the merged
definition of a table lays the tables of its passes over each other, in the
order in which the passes finished, and lists their content types in that order.

* `Emission.lookup_contributions` says what is contributed to a table.
* `laidOver_of_mem_tables` says what becomes of it.
* `exists_lookup_of_mem_passes` says that no pass is lost.

A table that is opened by a pass that does NOT finish has an entry among the
contributions, but nothing is contributed to it.
-/

namespace ContentSchema

namespace Emission

/-- The passes that write a table, in the order in which they finished. -/
def passesOn (emission : Emission) (table : String) : List Pass :=
  emission.passes.filter fun pass => pass.context.table = table

/-- What the passes on a table contribute. -/
def contributionsTo (emission : Emission) (table : String) : Contributions where
  tables := (emission.passesOn table).map Pass.table
  contentTypes := (emission.passesOn table).map Pass.contentType

/-- Opening tables contributes nothing to any of them. -/
theorem lookup_openAll (opened : List String) (tables : Entries Contributions)
    (hTables : ∀ table, (tables.lookup table).getD {} = {}) (table : String) :
    ((opened.foldl (fun tables table => Entries.insertNew table {} tables) tables).lookup
      table).getD {} = {} := by
  induction opened generalizing tables with
  | nil => exact hTables table
  | cons name rest ih =>
      apply ih
      intro other
      show ((Entries.insertNew name {} tables).lookup other).getD {} = {}
      unfold Entries.insertNew
      by_cases hSame : other = name
      · rw [hSame, Entries.lookup_update_self]
        exact hTables name
      · rw [Entries.lookup_update_of_ne hSame]
        exact hTables other

/-- Passes contribute one after another. -/
theorem foldl_contribute (passes : List Pass) (present : Option Contributions) :
    (passes.foldl (fun present pass =>
        some ((present.getD {}).contribute pass.table pass.contentType)) present).getD {} =
      { tables := (present.getD {}).tables ++ passes.map Pass.table
        contentTypes := (present.getD {}).contentTypes ++ passes.map Pass.contentType } := by
  induction passes generalizing present with
  | nil => simp
  | cons pass rest ih =>
      rw [List.foldl_cons, ih]
      simp [Contributions.contribute]

theorem contributions_eq_updateAll (emission : Emission) :
    emission.contributions =
      Entries.updateAll (fun pass => pass.context.table)
        (fun pass present => (present.getD {}).contribute pass.table pass.contentType)
        emission.passes
        (emission.opened.foldl (fun tables table => Entries.insertNew table {} tables) []) := rfl

/-- What is contributed to a table is what its passes contribute. -/
theorem lookup_contributions {emission : Emission} {table : String} {contributed : Contributions}
    (hTable : emission.contributions.lookup table = some contributed) :
    contributed = emission.contributionsTo table := by
  rw [contributions_eq_updateAll, Entries.lookup_updateAll] at hTable
  have hFold := foldl_contribute (emission.passesOn table)
    ((emission.opened.foldl (fun tables table => Entries.insertNew table {} tables) []).lookup
      table)
  rw [lookup_openAll emission.opened [] (fun _ => rfl) table] at hFold
  unfold passesOn at hFold
  rw [hTable] at hFold
  exact hFold

theorem distinct_opened (emission : Emission) :
    Entries.Distinct (emission.opened.foldl
      (fun tables table => Entries.insertNew table ({} : Contributions) tables) []) :=
  Entries.distinct_updateAll Entries.distinct_nil

theorem distinct_contributions (emission : Emission) :
    Entries.Distinct emission.contributions := by
  rw [contributions_eq_updateAll]
  exact Entries.distinct_updateAll emission.distinct_opened

/-- Whatever a pass writes to is contributed to. -/
theorem exists_lookup_contributions {emission : Emission} {pass : Pass}
    (hPass : pass ∈ emission.passes) :
    ∃ contributed, emission.contributions.lookup pass.context.table = some contributed := by
  rw [← Entries.mem_keys_iff, contributions_eq_updateAll,
    Entries.keys_updateAll emission.distinct_opened, List.mem_eraseDups]
  exact List.mem_append_right _ (List.mem_map_of_mem hPass)

end Emission

/-- A compiled pass lists no field and no palette twice. -/
theorem Pass.Compiled.distinct_table {pass : Pass} (hPass : pass.Compiled) :
    pass.table.Distinct where
  fields := by
    rw [Entries.Distinct, hPass.keys_fields]
    exact Entries.nodup_eraseDups _
  palettes := by
    rw [Entries.Distinct, hPass.keys_palettes]
    exact Entries.nodup_eraseDups _

/-- Every table of a result is merged from the tables of the passes on it. -/
theorem laidOver_of_mem_tables {environment : Environment} {documents : List SchemaDocument}
    {result : CompiledResult} {name : String} {table : TableDefinition}
    (hResult : compile environment documents = .ok result)
    (hTable : (name, table) ∈ result.tables) :
    TableDefinition.LaidOver
        (((runWalk environment documents).emission.passesOn name).map Pass.table) table ∧
      table.contentTypes =
        ((runWalk environment documents).emission.passesOn name).map Pass.contentType := by
  obtain ⟨_, rfl⟩ := compile_eq_ok_iff.mp hResult
  obtain ⟨contributed, hContributed, hMerged⟩ := mem_mergeTables_iff.mp hTable
  have hLookup := (Entries.mem_iff_lookup (Emission.distinct_contributions _)).mp hContributed
  have hSame := Emission.lookup_contributions hLookup
  -- The rules of precedence need tables that list nothing twice, as passes make them.
  have hDistinct : contributed.Distinct := by
    intro definition hDefinition
    rw [hSame] at hDefinition
    obtain ⟨pass, hPass, rfl⟩ := List.mem_map.mp hDefinition
    exact (compiled_of_mem_passes (List.mem_filter.mp hPass).1).distinct_table
  have hLaid := Contributions.laidOver_of_merged? hMerged hDistinct
  rw [hSame] at hLaid
  exact hLaid

/-- The table of every pass is part of the result. -/
theorem exists_lookup_of_mem_passes {environment : Environment} {documents : List SchemaDocument}
    {result : CompiledResult} (hResult : compile environment documents = .ok result) {pass : Pass}
    (hPass : pass ∈ (runWalk environment documents).emission.passes) :
    ∃ table, result.tables.lookup pass.context.table = some table := by
  obtain ⟨_, rfl⟩ := compile_eq_ok_iff.mp hResult
  let emission := (runWalk environment documents).emission
  obtain ⟨contributed, hLookup⟩ := Emission.exists_lookup_contributions hPass
  have hTables : contributed.tables ≠ [] := by
    rw [Emission.lookup_contributions hLookup]
    have hOn : pass ∈ emission.passesOn pass.context.table :=
      List.mem_filter.mpr ⟨hPass, by simp⟩
    exact List.ne_nil_of_mem (List.mem_map_of_mem hOn)
  obtain ⟨merged, hMerged⟩ :=
    Option.isSome_iff_exists.mp ((Contributions.isSome_merged?_iff contributed).mpr hTables)
  exact ⟨merged, (lookup_mergeTables hLookup hTables).trans hMerged⟩

/-- The content type of every pass is listed with its table. -/
theorem exists_contentTypes_of_mem_passes {environment : Environment}
    {documents : List SchemaDocument} {result : CompiledResult}
    (hResult : compile environment documents = .ok result) {pass : Pass}
    (hPass : pass ∈ (runWalk environment documents).emission.passes) :
    ∃ table, result.tables.lookup pass.context.table = some table ∧
      pass.contentType ∈ table.contentTypes := by
  obtain ⟨table, hTable⟩ := exists_lookup_of_mem_passes hResult hPass
  refine ⟨table, hTable, ?_⟩
  rw [(laidOver_of_mem_tables hResult (Entries.mem_of_lookup hTable)).2]
  exact List.mem_map_of_mem (List.mem_filter.mpr ⟨hPass, decide_eq_true rfl⟩)

end ContentSchema
