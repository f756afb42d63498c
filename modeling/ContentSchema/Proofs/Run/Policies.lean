import ContentSchema.Proofs.Pass.Policies
import ContentSchema.Proofs.Run.ContentTypes
import ContentSchema.Proofs.Run.Grouping
import ContentSchema.Proofs.Run.ParentReferences

/-!
# Documents with other policies

The policy of a document decides under which final identifiers the fields of its own
table are listed.  It has no other say: neither in the translations nor in the tables
of its collections, as long as these author their tables.

* `CompiledResult.NamedOtherwise` says how the results of two policies compare.
* `compile_repolicied` compares them.

The columns of the table of the document are NOT paired off by their names: two fields
may share a final identifier under one policy and have two under another.
-/

namespace ContentSchema

/-- The identifiers of the listed fields as authored, in order. -/
def TableDefinition.authoredIdentifiers (definition : TableDefinition) : List String :=
  (Entries.values definition.fields).map CompiledField.identifier

/-- The discriminator values of the content types, in order. -/
def TableDefinition.typeNames (definition : TableDefinition) : List (Option String) :=
  definition.contentTypes.map ContentType.typeName

/-- The final identifiers of the fields of the pass at a site, in order. -/
def Site.columns (site : Site) : List String :=
  site.fields.map site.context.fieldName

/-! ## The tables of a walk -/

/-- A pass whose fields have different final identifiers lists all of them. -/
theorem Pass.Compiled.authoredIdentifiers_eq {pass : Pass} (hPass : pass.Compiled)
    (hColumns : pass.site.columns.Nodup) :
    pass.table.authoredIdentifiers = pass.site.fields.map FieldNode.identifierText := by
  obtain ⟨sortFields, hTable⟩ := hPass.exists_tableWith
  have hDistinct : Entries.Distinct ((compiledFields pass.items).map fun field =>
      (field.uniqueIdentifier, field)) := by
    have hKeys := hPass.map_uniqueIdentifier
    show (List.map Prod.fst (List.map _ _)).Nodup
    rw [List.map_map]
    exact hKeys ▸ hColumns
  rw [hTable, ← hPass.map_identifier]
  unfold tableWith TableDefinition.authoredIdentifiers Entries.values Entries.mapValues
  rw [Entries.ofList_eq_self hDistinct]
  simp only [List.map_map]
  rfl

namespace Emission

variable {emission other : Emission} {nested : List Pass} {own last : Pass} {table : String}
  {policy : PrefixPolicy}

/-- Only the last pass contributes to its table if no other one writes it. -/
theorem contributionsTo_own (hPasses : emission.passes = nested ++ [own])
    (hNested : ∀ pass ∈ nested, pass.context.table ≠ own.context.table) :
    emission.contributionsTo own.context.table = ⟨[own.table], [own.contentType]⟩ := by
  have hOn : emission.passesOn own.context.table = [own] := by
    rw [passesOn, hPasses, List.filter_append,
      List.filter_eq_nil_iff.mpr fun pass hPass => by simpa using hNested pass hPass]
    simp
  rw [contributionsTo, hOn]
  rfl

/-- The definition of that table is the one of the last pass. -/
theorem table?_own (hPasses : emission.passes = nested ++ [own])
    (hNested : ∀ pass ∈ nested, pass.context.table ≠ own.context.table) :
    (resultOf emission).table? own.context.table =
      some { own.table with contentTypes := [own.contentType] } := by
  show (mergeTables _).lookup _ = _
  rw [lookup_mergeTables_contributions, contributionsTo_own hPasses hNested]
  rfl

/-- What is contributed to a table does not depend on the policy that passes name, nor
on a last pass over another table. -/
theorem contributionsTo_repolicy (hPasses : emission.passes = nested ++ [own])
    (hOther : other.passes = nested.map (Pass.repolicy policy) ++ [last])
    (hOwn : own.context.table ≠ table) (hLast : last.context.table ≠ table) :
    other.contributionsTo table = emission.contributionsTo table := by
  have hOn : other.passesOn table = (emission.passesOn table).map (Pass.repolicy policy) := by
    unfold passesOn
    rw [hPasses, hOther, List.filter_append, List.filter_append, List.filter_map]
    simp [hOwn, hLast]
    rfl
  rw [contributionsTo, hOn, List.map_map, List.map_map]
  rfl

end Emission

/-! ## Results -/

/-- Two results that differ by the final identifiers of the fields of one table only.
In the first one these are `columns`, and in the second one `others`. -/
structure CompiledResult.NamedOtherwise (result other : CompiledResult) (root : String)
    (columns others : List String) : Prop where
  languageKeys : other.languageKeys = result.languageKeys
  /-- The tables are the same ones, in the same order. -/
  tables : Entries.keys other.tables = Entries.keys result.tables
  definitions : ∀ table, table ≠ root → other.table? table = result.table? table
  root : ∃ definition definition', result.table? root = some definition ∧
    other.table? root = some definition' ∧
      definition'.typeNames = definition.typeNames ∧
        (columns.Nodup → others.Nodup →
          definition'.authoredIdentifiers = definition.authoredIdentifiers)

/-- What is emitted at a site under two policies makes up such results. -/
theorem Site.AuthorsTables.namedOtherwise_resultOf {site : Site} {policy : PrefixPolicy}
    (hTables : site.AuthorsTables) (hSite : site.Succeeds)
    (hRoot : site.context.isRootTable = true) :
    (resultOf site.walk.emission).NamedOtherwise
      (resultOf (site.repolicy policy).walk.emission) site.context.table site.columns
      (site.repolicy policy).columns := by
  have hOther : (site.repolicy policy).Succeeds := hTables.succeeds_repolicy_iff.mpr hSite
  have hRootTable : site.context.table = site.context.rootTable := of_decide_eq_true hRoot
  obtain ⟨nested, own, last, hPasses, hOtherPasses, hNested, ⟨hCompiled, hOwn⟩,
    hLastCompiled, hLast⟩ := hTables.exists_passes_repolicy hSite policy
  have hOwnTable : own.context.table = site.context.table := by
    rw [← hOwn]
    rfl
  have hLastTable : last.context.table = site.context.table :=
    congrArg (fun other : Site => other.context.table) hLast
  constructor
  case languageKeys =>
    have hKeys : (site.repolicy policy).walk.emission.keys = site.walk.emission.keys := by
      rw [hOther.registers_walk.self, hSite.registers_walk.self]
      exact congrArg _ (hTables.keys_repolicy hSite)
    show (site.repolicy policy).walk.emission.keys.foldl _ [] =
      site.walk.emission.keys.foldl _ []
    rw [hKeys]
  case tables =>
    show Entries.keys (mergeTables _) = Entries.keys (mergeTables _)
    rw [Emission.keys_mergeTables_contributions hOther.perm_opened,
      Emission.keys_mergeTables_contributions hSite.perm_opened, hTables.opened_repolicy hSite]
  case definitions =>
    intro table hNe
    show (mergeTables _).lookup table = (mergeTables _).lookup table
    rw [Emission.lookup_mergeTables_contributions, Emission.lookup_mergeTables_contributions,
      Emission.contributionsTo_repolicy hPasses hOtherPasses (hOwnTable.trans_ne hNe.symm)
        (hLastTable.trans_ne hNe.symm)]
  case root =>
    have hFound := Emission.table?_own hPasses fun pass hPass =>
      (hNested pass hPass).trans_eq (hOwnTable.trans hRootTable).symm
    have hOtherFound := Emission.table?_own hOtherPasses (List.forall_mem_map.mpr
      fun pass hPass => (hNested pass hPass).trans_eq (hLastTable.trans hRootTable).symm)
    rw [hOwnTable] at hFound
    rw [hLastTable] at hOtherFound
    refine ⟨_, _, hFound, hOtherFound, ?_, ?_⟩
    · -- Both content types have the discriminator value that the pass reads.
      have hTypeName : last.context.typeName = own.context.typeName := by
        show last.site.context.typeName = own.site.context.typeName
        rw [hLast, hOwn]
        rfl
      show [last.contentType.typeName] = [own.contentType.typeName]
      rw [hLastCompiled.contentType_tells.2.2, hCompiled.contentType_tells.2.2, hTypeName]
    · intro hColumns hOthers
      rw [← hOwn] at hColumns
      rw [← hLast] at hOthers
      show last.table.authoredIdentifiers = own.table.authoredIdentifiers
      rw [hLastCompiled.authoredIdentifiers_eq hOthers, hCompiled.authoredIdentifiers_eq hColumns,
        hLast, hOwn]
      rfl

/-! ## Documents -/

section Documents

variable {environment : Environment} {document : SchemaDocument} {context : PassContext}
  {policy : PrefixPolicy}

/-- The pass over a document with another policy reads the same otherwise. -/
theorem PassContext.ofDocument_repolicy_eq_ok_iff :
    ofDocument environment (document.repolicy policy) = .ok context ↔
      ∃ own, ofDocument environment document = .ok own ∧ context = own.repolicy policy := by
  simp only [ofDocument_eq_ok_iff]
  constructor
  · rintro ⟨table, typeName, hTable, hTypeName, rfl⟩
    exact ⟨_, ⟨table, typeName, hTable, hTypeName, rfl⟩, rfl⟩
  · rintro ⟨_, ⟨table, typeName, hTable, hTypeName, rfl⟩, rfl⟩
    exact ⟨table, typeName, hTable, hTypeName, rfl⟩

/-- The site of a document with another policy, with the nodes that are added to it. -/
theorem SchemaDocument.soleSite_repolicy (context : PassContext) :
    (document.repolicy policy).soleSite (context.repolicy policy) =
      (document.soleSite context).repolicy policy := rfl

/-- Every collection of the document, at whatever depth, authors the table of its nested
nodes, and none authors that of the document. -/
def SchemaDocument.AuthorsTables (document : SchemaDocument) (environment : Environment) : Prop :=
  ∀ context, PassContext.ofDocument environment document = .ok context →
    (document.soleSite context).AuthorsTables

variable (hTables : document.AuthorsTables environment) (policy)

include hTables

/-- The policy does not decide whether a document compiles. -/
theorem exists_compile_iff_of_authorsTables :
    (∃ result, compile environment [document] = .ok result) ↔
      ∃ other, compile environment [document.repolicy policy] = .ok other := by
  rw [exists_compile_iff_succeeds, exists_compile_iff_succeeds]
  refine and_congr Iff.rfl ?_
  constructor
  · rintro ⟨context, hContext, hSite⟩
    refine ⟨_, PassContext.ofDocument_repolicy_eq_ok_iff.mpr ⟨context, hContext, rfl⟩, ?_⟩
    rw [SchemaDocument.soleSite_repolicy]
    exact (hTables context hContext).succeeds_repolicy_iff.mpr hSite
  · rintro ⟨_, hOther, hSite⟩
    obtain ⟨context, hContext, rfl⟩ := PassContext.ofDocument_repolicy_eq_ok_iff.mp hOther
    rw [SchemaDocument.soleSite_repolicy] at hSite
    exact ⟨context, hContext, (hTables context hContext).succeeds_repolicy_iff.mp hSite⟩

/-- **The policy stays in the table of the document.**  It does not decide whether a
document compiles, and of the result it changes neither the translations, nor the
tables of the collections, nor the discriminator value; the columns of the table of the
document stand for the same fields in the same order, unless some of them share a final
identifier. -/
theorem compile_repolicied :
    ((∃ result, compile environment [document] = .ok result) ↔
      ∃ other, compile environment [document.repolicy policy] = .ok other) ∧
    ∀ result other, compile environment [document] = .ok result →
      compile environment [document.repolicy policy] = .ok other →
        ∃ context, PassContext.ofDocument environment document = .ok context ∧
          PassContext.ofDocument environment (document.repolicy policy) =
            .ok (context.repolicy policy) ∧
          result.NamedOtherwise other context.table (document.soleSite context).columns
            ((document.repolicy policy).soleSite (context.repolicy policy)).columns := by
  refine ⟨exists_compile_iff_of_authorsTables policy hTables, fun result other hResult hOther => ?_⟩
  obtain ⟨context, hContext, hSite, rfl⟩ := exists_soleSite_of_compile hResult
  obtain ⟨_, hRepolicied, _, rfl⟩ := exists_soleSite_of_compile hOther
  obtain ⟨own, hOwn, rfl⟩ := PassContext.ofDocument_repolicy_eq_ok_iff.mp hRepolicied
  obtain rfl : own = context := Except.ok.inj (hOwn.symm.trans hContext)
  refine ⟨own, hContext, hRepolicied, ?_⟩
  rw [SchemaDocument.soleSite_repolicy]
  exact (hTables own hContext).namedOtherwise_resultOf hSite
    (PassContext.ofDocument_of_eq_ok hContext).isRootTable

end Documents

/-- A collection that authors its table. -/
def notesField : FieldNode :=
  { FieldNode.ofType "notes" "Collection" with
    table := some "acme_notes"
    fields := [.ofType "text" "Text"] }

/-- A collection with another one among its fields. -/
def chaptersField : FieldNode :=
  { FieldNode.ofType "chapters" "Collection" with
    table := some "acme_chapters"
    fields := [.ofType "title" "Text", notesField] }

/-- A document whose collections author their tables. -/
def handbook : SchemaDocument where
  name := "acme/handbook"
  fields := [.ofType "heading" "Text", chaptersField]

/-- What the pass over the document reads. -/
def handbookContext : PassContext :=
  .root galleryEnvironment handbook "tt_content" "acme_handbook"

theorem ofDocument_handbook :
    PassContext.ofDocument galleryEnvironment handbook = .ok handbookContext := rfl

theorem authorsTables_handbook : handbook.AuthorsTables galleryEnvironment := by
  intro context hContext
  obtain rfl : handbookContext = context :=
    Except.ok.inj (ofDocument_handbook.symm.trans hContext)
  let chapters := handbookContext.nested chaptersField {}
  let path := handbook.rootPath.push "chapters"
  have hOuter : (handbook.soleSite handbookContext).children =
      [⟨chapters, path, chaptersField.fields⟩] := rfl
  have hInner : Site.children ⟨chapters, path, chaptersField.fields⟩ =
      [⟨chapters.nested notesField {}, path.push "notes", notesField.fields⟩] := rfl
  have hInnermost : Site.children
      ⟨chapters.nested notesField {}, path.push "notes", notesField.fields⟩ = [] := rfl
  refine .site (by decide +kernel) ?_
  rw [hOuter, List.forall_mem_singleton]
  refine .site (by decide +kernel) ?_
  rw [hInner, List.forall_mem_singleton]
  refine .site (by decide +kernel) ?_
  rw [hInnermost]
  exact List.forall_mem_nil _

/-- The columns of the document under two policies. -/
theorem compile_repolicied_handbook :
    ∃ result other, compile galleryEnvironment [handbook] = .ok result ∧
      compile galleryEnvironment [handbook.repolicy ⟨true, .vendor, some "ac"⟩] = .ok other ∧
      result.NamedOtherwise other "tt_content" ["acme_handbook_heading", "acme_handbook_chapters"]
        ["ac_heading", "ac_chapters"] := by
  obtain ⟨hCompiles, hResults⟩ :=
    compile_repolicied ⟨true, .vendor, some "ac"⟩ authorsTables_handbook
  obtain ⟨result, hResult⟩ : ∃ result, compile galleryEnvironment [handbook] = .ok result :=
    exists_eq_ok_of_isSome (by decide +kernel)
  obtain ⟨other, hOther⟩ := hCompiles.mp ⟨result, hResult⟩
  obtain ⟨context, hContext, _, hNamed⟩ := hResults result other hResult hOther
  obtain rfl : handbookContext = context :=
    Except.ok.inj (ofDocument_handbook.symm.trans hContext)
  have hColumns : (handbook.soleSite handbookContext).columns =
      ["acme_handbook_heading", "acme_handbook_chapters"] := by decide +kernel
  have hOthers : ((handbook.repolicy ⟨true, .vendor, some "ac"⟩).soleSite
      (handbookContext.repolicy ⟨true, .vendor, some "ac"⟩)).columns =
        ["ac_heading", "ac_chapters"] := by decide +kernel
  rw [hColumns, hOthers] at hNamed
  exact ⟨result, other, hResult, hOther, hNamed⟩

end ContentSchema
