import ContentSchema.Proofs.Pass.Sites

/-!
# Passes over the same fields

Tabs and palettes shape what a form shows.  Apart from that, what becomes of a pass
depends on the nodes that become its fields and on their order.

* `TableDefinition.undisplayed` is a definition apart from what its forms show, and
  `Contributions.merged?_undisplayed` says that merging respects this.
* `Pass.Compiled.table_undisplayed_eq` compares two passes over the same fields.
* `Site.Reshapes` says that two sites have the same fields, and the statements about
  it compare what their walks emit.

The language keys are NOT compared here: tabs and palettes register keys of their
own.
-/

namespace ContentSchema

/-! ## Definitions apart from what is shown -/

/-- A content type apart from what it shows, and in which order. -/
def ContentType.undisplayed (contentType : ContentType) : ContentType :=
  { contentType with showItems := [] }

/-- The definition of a table apart from what its forms show: the palettes, and the
display entries of the content types. -/
def TableDefinition.undisplayed (definition : TableDefinition) : TableDefinition :=
  { definition with
    palettes := []
    contentTypes := definition.contentTypes.map ContentType.undisplayed }

/-- Contributions apart from what is shown. -/
def Contributions.undisplayed (contributions : Contributions) : Contributions where
  tables := contributions.tables.map TableDefinition.undisplayed
  contentTypes := contributions.contentTypes.map ContentType.undisplayed

namespace TableDefinition

/-- What is laid over a definition shows something else only where it does. -/
theorem merge_undisplayed (base overlay : TableDefinition) :
    (base.merge overlay).undisplayed = base.undisplayed.merge overlay.undisplayed := rfl

theorem foldl_merge_undisplayed (first : TableDefinition) (rest : List TableDefinition) :
    (rest.foldl merge first).undisplayed =
      (rest.map undisplayed).foldl merge first.undisplayed := by
  induction rest generalizing first with
  | nil => rfl
  | cons next rest ih => rw [List.foldl_cons, ih, merge_undisplayed, List.map_cons, List.foldl_cons]

end TableDefinition

/-- What is shown does not matter to anything else that is merged. -/
theorem Contributions.merged?_undisplayed (contributions : Contributions) :
    contributions.merged?.map TableDefinition.undisplayed = contributions.undisplayed.merged? := by
  obtain ⟨tables, contentTypes⟩ := contributions
  cases tables with
  | nil => rfl
  | cons first rest =>
      rw [merged?, Option.map_some, undisplayed, merged?, List.map_cons, Option.some_inj]
      have hMerged := TableDefinition.foldl_merge_undisplayed first rest
      rw [← hMerged]
      rfl

/-! ## Two passes -/

/-- A node is compiled into one field at most. -/
theorem PassContext.makes_unique {context : PassContext} {path : LanguagePath} :
    Relator.RightUnique (context.Makes path) := by
  rintro node field other ⟨type, unique, ⟨_, hType⟩, hUnique, rfl⟩
    ⟨type', unique', ⟨_, hType'⟩, hUnique', rfl⟩
  obtain rfl : type = type' := Option.some.inj (hType.symm.trans hType')
  obtain rfl : unique = unique' := Except.ok.inj (hUnique.symm.trans hUnique')
  rfl

/-- An entry of a palette becomes one thing at most. -/
theorem PassContext.makesEntry_unique {context : PassContext} {path : LanguagePath} :
    Relator.RightUnique (context.MakesEntry path) := by
  intro node entry other hEntry hOther
  cases hEntry with
  | linebreak hKind =>
      cases hOther with
      | linebreak => rfl
      | field hNot _ => exact absurd hKind hNot
  | field hNot made =>
      cases hOther with
      | linebreak hKind => exact absurd hKind hNot
      | field _ otherMade => rw [makes_unique made otherMade]

/-- A node of a pass becomes one list of items at most. -/
theorem PassContext.makesItems_unique {context : PassContext} {path : LanguagePath} :
    Relator.RightUnique (context.MakesItems path) := by
  intro node items others hItems hOthers
  cases hItems with
  | tab hKind =>
      cases hOthers with
      | tab => rfl
      | empty hOther => cases hKind.symm.trans hOther
      | palette hOther => cases hKind.symm.trans hOther
      | field _ hNot => exact absurd hKind hNot
  | empty hKind hFields =>
      cases hOthers with
      | tab hOther => cases hKind.symm.trans hOther
      | empty => rfl
      | palette _ hSome => exact absurd hFields hSome
      | field hNot => exact absurd hKind hNot
  | palette hKind hFields named made =>
      cases hOthers with
      | tab hOther => cases hKind.symm.trans hOther
      | empty _ hNone => exact absurd hNone hFields
      | palette _ _ otherNamed otherMade =>
          rw [Except.ok.inj (named.symm.trans otherNamed),
            List.right_unique_forall₂' makesEntry_unique made otherMade]
      | field hNot => exact absurd hKind hNot
  | field hPalette hTab made =>
      cases hOthers with
      | tab hKind => exact absurd hKind hTab
      | empty hKind => exact absurd hKind hPalette
      | palette hKind => exact absurd hKind hPalette
      | field _ _ otherMade => rw [makes_unique made otherMade]

/-- Two sites at one position, in the same context, that have the same fields. -/
structure Site.Reshapes (site other : Site) : Prop where
  context : other.context = site.context
  path : other.path = site.path
  fields : other.fields = site.fields

namespace Pass

variable {pass other : Pass} (hPass : pass.Compiled) (hOther : other.Compiled)
  (hSame : pass.site.Reshapes other.site)

include hPass hOther hSame

/-- Passes over the same fields compile them alike. -/
theorem Compiled.compiledFields_eq : compiledFields other.items = compiledFields pass.items := by
  obtain ⟨chunks, hChunks, hItems⟩ := hPass.exists_chunks
  obtain ⟨others, hOthers, hOtherItems⟩ := hOther.exists_chunks
  have hFields := PassContext.forall₂_makes_fieldNodes hChunks
  have hOtherFields := PassContext.forall₂_makes_fieldNodes hOthers
  have hNodes : other.context.fieldNodes other.nodes = pass.context.fieldNodes pass.nodes :=
    hSame.fields
  have hContext : other.context = pass.context := hSame.context
  have hPath : other.path = pass.path := hSame.path
  rw [← hItems] at hFields
  rw [← hOtherItems, hNodes, hContext, hPath] at hOtherFields
  exact List.right_unique_forall₂' PassContext.makes_unique hOtherFields hFields

/-- Passes over the same fields make up the same table, apart from what is shown. -/
theorem Compiled.table_undisplayed_eq : other.table.undisplayed = pass.table.undisplayed := by
  have hContext : other.context = pass.context := hSame.context
  have hFields := hPass.compiledFields_eq hOther hSame
  have hNames : identifierMap other.items = identifierMap pass.items := by
    rw [identifierMap, hFields, identifierMap]
  obtain ⟨_, _, _, _, hClose⟩ := hPass
  obtain ⟨_, hTable, hMade⟩ := close_eq_ok_iff.mp hClose
  obtain ⟨columns, hColumns, rfl⟩ := tableOf_eq_ok_iff.mp hTable
  obtain ⟨_, _, _, _, hOtherClose⟩ := hOther
  obtain ⟨_, hOtherTable, hOtherMade⟩ := close_eq_ok_iff.mp hOtherClose
  obtain ⟨others, hOthers, rfl⟩ := tableOf_eq_ok_iff.mp hOtherTable
  -- The columns to sort by are resolved among the same names.
  rw [hNames, hContext] at hOthers
  obtain rfl : others = columns := Except.ok.inj (hOthers.symm.trans hColumns)
  have hTables : pass.table = tableWith pass.context pass.items others := by rw [hMade]
  have hOtherTables : other.table = tableWith other.context other.items others := by
    rw [hOtherMade]
  rw [hTables, hOtherTables, hContext]
  unfold tableWith TableDefinition.undisplayed
  rw [hNames, hFields]

/-- Passes over the same fields make up the same content type, apart from what is
shown. -/
theorem Compiled.contentType_undisplayed_eq :
    other.contentType.undisplayed = pass.contentType.undisplayed := by
  have hContext : other.context = pass.context := hSame.context
  have hPath : other.path = pass.path := hSame.path
  have hTables := congrArg TableDefinition.fields (hPass.table_undisplayed_eq hOther hSame)
  obtain ⟨contentType, _, hType, _, hClose⟩ := hPass
  obtain ⟨table, _, hMade⟩ := close_eq_ok_iff.mp hClose
  obtain ⟨contentType', _, hType', _, hClose'⟩ := hOther
  obtain ⟨table', _, hMade'⟩ := close_eq_ok_iff.mp hClose'
  rw [hContext] at hType'
  obtain rfl : contentType' = contentType := Except.ok.inj (hType'.symm.trans hType)
  have hShown : pass.contentType = shownType pass.context
      (pass.context.titledType pass.path contentType') pass.items pass.table := by
    rw [hMade]
  have hShown' : other.contentType = shownType other.context
      (other.context.titledType other.path contentType') other.items other.table := by
    rw [hMade']
  have hColumns : overrideColumns pass.context other.table =
      overrideColumns pass.context pass.table := by
    unfold overrideColumns
    rw [show other.table.fields = pass.table.fields from hTables]
  rw [hShown, hShown', hContext, hPath]
  unfold shownType ContentType.undisplayed
  rw [hColumns]

end Pass

/-! ## Two sites -/

namespace Site

variable {site other : Site} (hSame : site.Reshapes other)

include hSame

/-- Sites with the same fields lead to the same sites. -/
theorem Reshapes.child?_eq : other.child? = site.child? := by
  funext node
  rw [child?, hSame.context, hSame.path, child?]

theorem Reshapes.children_eq : other.children = site.children := by
  rw [children, hSame.fields, hSame.child?_eq, children]

variable (hSite : site.Succeeds) (hOther : other.Succeeds)

include hSite hOther

theorem Reshapes.opened_eq : other.walk.emission.opened = site.walk.emission.opened := by
  rw [hOther.opened_walk, hSite.opened_walk, hSame.context, hSame.children_eq]

theorem Reshapes.references_eq :
    other.walk.emission.references = site.walk.emission.references := by
  rw [hOther.references_walk, hSite.references_walk, hSame.fields, hSame.context, hSame.path,
    hSame.child?_eq]

/-- The walks over sites with the same fields emit the same nested passes, and then
passes over the same fields. -/
theorem Reshapes.exists_passes_eq :
    ∃ nested own own', site.walk.emission.passes = nested ++ [own] ∧
      other.walk.emission.passes = nested ++ [own'] ∧
      own.site = site ∧ own.Compiled ∧ own'.Compiled ∧ own.site.Reshapes own'.site := by
  obtain ⟨own, hOwn, hPasses⟩ := hSite.passes_walk
  obtain ⟨own', hOwn', hPasses'⟩ := hOther.passes_walk
  have hCompiled (site : Site) : Walk.AllPasses Pass.Compiled site.walk :=
    PassContext.allPasses_compilePass fun node _ => PassContext.emitsCompiled node
  refine ⟨_, own, own', hPasses, ?_, hOwn, hCompiled site own ?_, hCompiled other own' ?_, ?_⟩
  · rw [hPasses', hSame.children_eq]
  · rw [hPasses]
    simp
  · rw [hPasses']
    simp
  · rw [hOwn, hOwn']
    exact hSame

end Site
end ContentSchema
