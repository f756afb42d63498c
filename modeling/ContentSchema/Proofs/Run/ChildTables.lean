import ContentSchema.Proofs.Run.Sites

/-!
# Generated child tables

A collection that names no table is compiled into a child table under the final
identifier of its field.  Inside a collection final identifiers are the authored
ones, on the table of a document they start with its prefix unless the field or
the document says otherwise.  So a child table is shared by collections that are
authored alike inside different collections, or where the prefix does not set
them apart.

* `Pass.Generates` is a collection with a generated child table.
* `PassContext.NamedAlike` lists the ways in which two collections come to one
  final identifier.
* `generated_tables_of_compile` says that these are the only ways to share a
  child table, and when such a table is that of a document.

Final identifiers are NOT compared across tables by the compiler, so sharing is
never an error.
-/

namespace ContentSchema

/-! ## Final identifiers -/

namespace PassContext

/-- The field goes by the given final identifier: behind the prefix if it is set
apart, and as authored otherwise. -/
def NamedAs (context : PassContext) (node : FieldNode) (name : String) : Prop :=
  (context.FieldApart node ∧ name = context.beginning ++ node.identifierText) ∨
    (¬context.FieldApart node ∧ name = node.identifierText)

theorem fieldName_eq_iff {context : PassContext} {node : FieldNode} {name : String} :
    context.fieldName node = name ↔ context.NamedAs node name := by
  unfold fieldName nameOf NamedAs
  by_cases hApart : context.FieldApart node
  · simp [hApart, eq_comm]
  · simp [hApart, eq_comm]

/-- The ways in which fields of two passes come to one final identifier. -/
inductive NamedAlike (first : PassContext) (node : FieldNode) (second : PassContext)
    (other : FieldNode) : Prop where
  /-- None is set apart, and they are authored alike. -/
  | plain (hFirst : ¬first.FieldApart node) (hSecond : ¬second.FieldApart other)
      (hNames : node.identifierText = other.identifierText)
  /-- Both are set apart, to the same effect. -/
  | apart (hFirst : first.FieldApart node) (hSecond : second.FieldApart other)
      (hNames : first.beginning ++ node.identifierText =
        second.beginning ++ other.identifierText)
  /-- The second is authored with the prefix of the first written out. -/
  | written (hFirst : first.FieldApart node) (hSecond : ¬second.FieldApart other)
      (hNames : first.beginning ++ node.identifierText = other.identifierText)
  /-- The first is authored with the prefix of the second written out. -/
  | writtenOut (hFirst : ¬first.FieldApart node) (hSecond : second.FieldApart other)
      (hNames : node.identifierText = second.beginning ++ other.identifierText)

theorem fieldName_eq_fieldName_iff {first second : PassContext} {node other : FieldNode} :
    first.fieldName node = second.fieldName other ↔ first.NamedAlike node second other := by
  constructor
  · intro hNames
    unfold fieldName nameOf at hNames
    by_cases hFirst : first.FieldApart node
    · by_cases hSecond : second.FieldApart other
      · rw [if_pos hFirst, if_pos hSecond] at hNames
        exact .apart hFirst hSecond hNames
      · rw [if_pos hFirst, if_neg hSecond] at hNames
        exact .written hFirst hSecond hNames
    · by_cases hSecond : second.FieldApart other
      · rw [if_neg hFirst, if_pos hSecond] at hNames
        exact .writtenOut hFirst hSecond hNames
      · rw [if_neg hFirst, if_neg hSecond] at hNames
        exact .plain hFirst hSecond hNames
  · unfold fieldName nameOf
    rintro (⟨hFirst, hSecond, hNames⟩ | ⟨hFirst, hSecond, hNames⟩ | ⟨hFirst, hSecond, hNames⟩ |
      ⟨hFirst, hSecond, hNames⟩)
    · rw [if_neg hFirst, if_neg hSecond, hNames]
    · rw [if_pos hFirst, if_pos hSecond, hNames]
    · rw [if_pos hFirst, if_neg hSecond, hNames]
    · rw [if_neg hFirst, if_pos hSecond, hNames]

end PassContext

/-! ## Collections of a run -/

/-- A collection of the pass whose nested nodes make up a pass of their own, and
which leaves the name of its table to the compiler. -/
structure Pass.Generates (pass : Pass) (node : FieldNode) : Prop where
  field : node ∈ pass.site.fields
  opens : pass.context.HasPass node
  unnamed : node.table = none

/-- A nested pass writes the child table of its collection. -/
theorem Pass.Embeds.table_eq {outer inner : Pass} {node : FieldNode}
    (hEmbeds : outer.Embeds node inner) :
    inner.context.table = outer.context.childTable node := by
  obtain ⟨settings, hContext⟩ := Site.context_of_child? hEmbeds.child
  show inner.site.context.table = _
  rw [hContext]
  rfl

/-- The generated table of a collection goes by the final identifier of its
field. -/
theorem Pass.Generates.childTable_eq {pass : Pass} {node : FieldNode}
    (hNode : pass.Generates node) :
    pass.context.childTable node = pass.context.fieldName node := by
  rw [PassContext.childTable, hNode.unnamed]
  rfl

section Run

variable {environment : Environment} {documents : List SchemaDocument} {result : CompiledResult}

/-- A table of a result is a root table exactly when a document targets it. -/
theorem isRootTable_iff_of_compile (hResult : compile environment documents = .ok result)
    {name : String} {table : TableDefinition} (hTable : result.tables.lookup name = some table) :
    table.isRootTable = true ↔ ∃ document ∈ documents, document.tableName = some name := by
  obtain ⟨hRun, _⟩ := compile_eq_ok_iff.mp hResult
  have hLaid := (laidOver_of_mem_tables hResult (Entries.mem_of_lookup hTable)).1
  have hMarked (pass : Pass)
      (hPass : pass ∈ (runWalk environment documents).emission.passes) :
      pass.table.isRootTable = true ↔ pass.context.table = pass.context.rootTable := by
    obtain ⟨_, hMade⟩ := (compiled_of_mem_passes hPass).exists_tableWith
    rw [hMade]
    exact decide_eq_true_iff
  rw [hLaid.isRootTable]
  -- A nested pass may be marked as well, but then its document targets the table.
  constructor
  · rintro ⟨_, hPart, hRoot⟩
    obtain ⟨pass, hOn, rfl⟩ := List.mem_map.mp hPart
    obtain ⟨hPass, hName⟩ := List.mem_filter.mp hOn
    obtain ⟨hDocument, hTarget⟩ := tableName_of_mem_passes hRun hPass
    refine ⟨pass.context.document, hDocument, ?_⟩
    rw [hTarget, ← (hMarked pass hPass).mp hRoot, of_decide_eq_true hName]
  · rintro ⟨document, hDocument, hTarget⟩
    obtain ⟨before, after, hSplit⟩ := List.append_of_mem hDocument
    obtain ⟨own, hOwn, hReads, _⟩ := exists_own_pass hRun hSplit
    obtain ⟨hOwnTable, hRoot⟩ := PassContext.tableName_of_ofDocument hReads
    have hName : own.context.table = name := Option.some.inj (hOwnTable.symm.trans hTarget)
    exact ⟨own.table, List.mem_map_of_mem (List.mem_filter.mpr ⟨hOwn, decide_eq_true hName⟩),
      (hMarked own hOwn).mpr hRoot⟩

/-- Every collection without an authored table is compiled into the table that
its final identifier names.  Within one pass two such collections share a table
only if they collide; in different passes they share it exactly when they are
named alike.  The table is a root table exactly when a document targets a table
of that name. -/
theorem generated_tables_of_compile (hResult : compile environment documents = .ok result) :
    (∀ pass ∈ (runWalk environment documents).emission.passes, ∀ node, pass.Generates node →
      ∃ inner ∈ (runWalk environment documents).emission.passes, pass.Embeds node inner ∧
        ∃ table, result.tables.lookup (pass.context.fieldName node) = some table ∧
          inner.contentType ∈ table.contentTypes ∧
          (table.isRootTable = true ↔ ∃ document ∈ documents, ∃ name,
            document.tableName = some name ∧ pass.context.NamedAs node name)) ∧
      (∀ pass ∈ (runWalk environment documents).emission.passes, ∀ node other,
        pass.Generates node → pass.Generates other → node ≠ other →
          pass.context.fieldName node = pass.context.fieldName other →
            pass.context.Collides pass.context.FieldApart node other ∨
              pass.context.Collides pass.context.FieldApart other node) ∧
      ∀ first ∈ (runWalk environment documents).emission.passes,
        ∀ second ∈ (runWalk environment documents).emission.passes, first.site ≠ second.site →
          ∀ node other, first.Generates node → second.Generates other →
            (first.context.fieldName node = second.context.fieldName other ↔
              first.context.NamedAlike node second.context other) := by
  obtain ⟨hRun, _⟩ := compile_eq_ok_iff.mp hResult
  refine ⟨?_, ?_, fun _ _ _ _ _ _ _ _ _ => PassContext.fieldName_eq_fieldName_iff⟩
  · intro pass hPass node hNode
    obtain ⟨inner, hInner, hEmbeds⟩ :=
      exists_embeds_of_mem_passes hRun hPass hNode.field hNode.opens
    obtain ⟨table, hTable, hListed⟩ := exists_contentTypes_of_mem_passes hResult hInner
    -- The nested pass is listed with its table, whose name is the generated one.
    rw [hEmbeds.table_eq, hNode.childTable_eq] at hTable
    refine ⟨inner, hInner, hEmbeds, table, hTable, hListed, ?_⟩
    rw [isRootTable_iff_of_compile hResult hTable]
    constructor
    · rintro ⟨document, hDocument, hTarget⟩
      exact ⟨document, hDocument, _, hTarget, PassContext.fieldName_eq_iff.mp rfl⟩
    · rintro ⟨document, hDocument, name, hTarget, hNamed⟩
      rw [PassContext.fieldName_eq_iff.mpr hNamed]
      exact ⟨document, hDocument, hTarget⟩
  · intro pass hPass node other hNode hOther hNe hNames
    -- Nodes of one pass are never authored alike.
    have hAuthored := (Claims.admits_start_iff.mp (compiled_of_mem_passes hPass).admits).1
    have hRaw : node.identifierText ≠ other.identifierText := fun hRaw =>
      hNe (List.inj_on_of_nodup_map hAuthored hNode.field hOther.field hRaw)
    exact (PassContext.nameOf_eq_iff pass.context.FieldApart hRaw).mp hNames

end Run

/-- A document with a collection of the same name in each of two collections. -/
def linkLists : SchemaDocument where
  name := "acme/list"
  fields :=
    [ { FieldNode.ofType "left" "Collection" with
        fields := [
          { FieldNode.ofType "links" "Collection" with fields := [.ofType "url" "Text"] }] },
      { FieldNode.ofType "right" "Collection" with
        fields := [
          { FieldNode.ofType "links" "Collection" with fields := [.ofType "text" "Text"] }] } ]

/-- The inner collections of the document are both named `links`. -/
theorem exists_generates_linkLists :
    ∃ left ∈ (runWalk galleryEnvironment [linkLists]).emission.passes,
      ∃ right ∈ (runWalk galleryEnvironment [linkLists]).emission.passes,
        ∃ first second, left.Generates first ∧ right.Generates second ∧
          left.context.table = "acme_list_left" ∧ right.context.table = "acme_list_right" ∧
          left.context.fieldName first = "links" ∧ right.context.fieldName second = "links" := by
  have hFound : ((runWalk galleryEnvironment [linkLists]).emission.passes.any fun left =>
      (runWalk galleryEnvironment [linkLists]).emission.passes.any fun right =>
        left.site.fields.any fun first => right.site.fields.any fun second =>
          decide ((left.context.HasPass first ∧ first.table = none) ∧
            (right.context.HasPass second ∧ second.table = none) ∧
            left.context.table = "acme_list_left" ∧ right.context.table = "acme_list_right" ∧
            left.context.fieldName first = "links" ∧
            right.context.fieldName second = "links")) = true := by
    decide +kernel
  simp only [List.any_eq_true, decide_eq_true_iff] at hFound
  obtain ⟨left, hLeft, right, hRight, first, hFirst, second, hSecond, ⟨hOpens, hUnnamed⟩,
    ⟨hOpens', hUnnamed'⟩, hRest⟩ := hFound
  exact ⟨left, hLeft, right, hRight, first, second, ⟨hFirst, hOpens, hUnnamed⟩,
    ⟨hSecond, hOpens', hUnnamed'⟩, hRest⟩

/-- The document compiles, and its two inner collections come to one table. -/
theorem shared_generated_table_linkLists :
    (compile galleryEnvironment [linkLists]).toOption.isSome = true ∧
      ([linkLists].map SchemaDocument.name).Nodup ∧
      ∃ left ∈ (runWalk galleryEnvironment [linkLists]).emission.passes,
        ∃ right ∈ (runWalk galleryEnvironment [linkLists]).emission.passes,
          ∃ first second, left.Generates first ∧ right.Generates second ∧
            left.context.table ≠ right.context.table ∧
            left.context.fieldName first = right.context.fieldName second := by
  refine ⟨by decide +kernel, by decide, ?_⟩
  obtain ⟨left, hLeft, right, hRight, first, second, hFirst, hSecond, hOn, hOn', hName, hName'⟩ :=
    exists_generates_linkLists
  refine ⟨left, hLeft, right, hRight, first, second, hFirst, hSecond, ?_, ?_⟩
  · rw [hOn, hOn']
    decide
  · rw [hName, hName']

/-- The rules at that document: its inner collections are named alike, and both
are compiled into the table that they name. -/
theorem generated_tables_of_compile_linkLists :
    ∃ result, compile galleryEnvironment [linkLists] = .ok result ∧
      ∃ left right : Pass, ∃ first second : FieldNode,
        left.context.NamedAlike first right.context second ∧
        ∃ inner inner' : Pass, left.Embeds first inner ∧ right.Embeds second inner' ∧
          ∃ table, result.tables.lookup "links" = some table ∧
            inner.contentType ∈ table.contentTypes ∧
              inner'.contentType ∈ table.contentTypes := by
  obtain ⟨result, hResult⟩ := exists_eq_ok_of_isSome
    (by decide +kernel : (compile galleryEnvironment [linkLists]).toOption.isSome = true)
  obtain ⟨left, hLeft, right, hRight, first, second, hFirst, hSecond, hOn, hOn', hName, hName'⟩ :=
    exists_generates_linkLists
  have hSites : left.site ≠ right.site := by
    intro hSame
    have hTables : left.context.table = right.context.table :=
      congrArg (fun site => site.context.table) hSame
    rw [hOn, hOn'] at hTables
    exact absurd hTables (by decide)
  obtain ⟨hCompiled, _, hShared⟩ := generated_tables_of_compile hResult
  have hAlike := (hShared left hLeft right hRight hSites first second hFirst hSecond).mp
    (hName.trans hName'.symm)
  obtain ⟨inner, _, hEmbeds, table, hTable, hListed, _⟩ := hCompiled left hLeft first hFirst
  obtain ⟨inner', _, hEmbeds', table', hTable', hListed', _⟩ :=
    hCompiled right hRight second hSecond
  rw [hName] at hTable
  rw [hName', hTable] at hTable'
  obtain rfl := Option.some.inj hTable'
  exact ⟨result, hResult, left, right, first, second, hAlike, inner, inner', hEmbeds, hEmbeds',
    table, hTable, hListed, hListed'⟩

end ContentSchema
