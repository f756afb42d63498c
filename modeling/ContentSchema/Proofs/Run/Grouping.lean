import ContentSchema.Proofs.Pass.Grouping
import ContentSchema.Proofs.Pass.Relisting
import ContentSchema.Proofs.Run.Listings

/-!
# Documents with palettes and tabs

Putting a palette around consecutive fields of a document, or a tab or an empty
palette between its nodes, decides nothing but what the forms of its table show.

* `CompiledResult.Regroups` says how the two results differ.
* `SchemaDocument.Regrouping` says which changes of a document are meant.
* `compile_regrouped` compares the results.

The pass over the other document is related to that over the first in two steps:
with other nodes in the same context, and then in the context of a document that
lists these nodes.

The order in which the keys are registered does NOT change either, but the keys of
the new node stand among them.
-/

namespace ContentSchema

/-! ## Results -/

/-- Two results that agree but for what the forms of one table show, and for the
keys of a new node, which the second has in addition. -/
structure CompiledResult.Regroups (result other : CompiledResult) (document root : String)
    (added : List LanguageKey) : Prop where
  /-- The tables are the same ones, in the same order. -/
  tables : Entries.keys other.tables = Entries.keys result.tables
  definitions : ∀ table, table ≠ root → other.table? table = result.table? table
  /-- Only the palettes and the display entries of the content types differ. -/
  root : (other.table? root).map TableDefinition.undisplayed =
    (result.table? root).map TableDefinition.undisplayed
  parentReferences : other.parentReferences = result.parentReferences
  languageKeys : ∃ earlier later, result.languageKeys = [(document, earlier ++ later)] ∧
    other.languageKeys = [(document, earlier ++ added ++ later)]

namespace Emission

variable {emission other : Emission} {nested : List Pass} {own own' : Pass} {table : String}

/-- What is contributed to a table does not depend on a last pass over another
one. -/
theorem contributionsTo_eq_of_ne (hPasses : emission.passes = nested ++ [own])
    (hOther : other.passes = nested ++ [own']) (hOwn : own.context.table ≠ table)
    (hOwn' : own'.context.table ≠ table) :
    other.contributionsTo table = emission.contributionsTo table := by
  have hPassesOn : other.passesOn table = emission.passesOn table := by
    unfold passesOn
    rw [hPasses, hOther, List.filter_append, List.filter_append]
    simp [hOwn, hOwn']
  rw [contributionsTo, hPassesOn, contributionsTo]

/-- A last pass that differs in what is shown contributes the same apart from
that. -/
theorem contributionsTo_undisplayed_eq (hPasses : emission.passes = nested ++ [own])
    (hOther : other.passes = nested ++ [own'])
    (hContext : own'.context.table = own.context.table)
    (hTable : own'.table.undisplayed = own.table.undisplayed)
    (hType : own'.contentType.undisplayed = own.contentType.undisplayed) :
    (other.contributionsTo table).undisplayed = (emission.contributionsTo table).undisplayed := by
  unfold contributionsTo passesOn Contributions.undisplayed
  rw [hPasses, hOther, List.filter_append, List.filter_append]
  by_cases hOn : own.context.table = table
  · simp [hContext, hOn, hTable, hType]
  · simp [hContext, hOn]

/-- The document that passes name does not matter to a result. -/
theorem resultOf_relist (fields : List FieldNode) (emission : Emission) :
    resultOf (emission.relist fields) = resultOf emission := by
  have hContributions : (emission.relist fields).contributions = emission.contributions :=
    List.foldl_map
  unfold resultOf
  rw [hContributions]
  rfl

end Emission

/-- What is emitted at two sites with the same fields makes up results that differ by
what is shown and by the keys. -/
theorem Site.Reshapes.regroups_resultOf {site other : Site} {earlier added later : List LanguageKey}
    (hSame : site.Reshapes other) (hSite : site.Succeeds) (hOther : other.Succeeds)
    (hKeys : site.keys = earlier ++ later) (hOtherKeys : other.keys = earlier ++ added ++ later)
    (hEarlier : earlier ≠ []) :
    (resultOf site.walk.emission).Regroups (resultOf other.walk.emission)
      site.context.document.name site.context.table added := by
  obtain ⟨nested, own, own', hPasses, hOtherPasses, hOwn, hCompiled, hOtherCompiled, hReshapes⟩ :=
    hSame.exists_passes_eq hSite hOther
  have hTable : own.context.table = site.context.table := by
    rw [← hOwn]
    rfl
  have hOtherTable : own'.context.table = own.context.table :=
    congrArg PassContext.table hReshapes.context
  have hListed {site : Site} {keys : List LanguageKey} (hSite : site.Succeeds)
      (hKeys : site.keys = keys) (hSome : keys ≠ []) :
      (resultOf site.walk.emission).languageKeys = [(site.context.document.name, keys)] := by
    have hRegisters := hSite.registers_walk.self
    rw [← hKeys] at hSome ⊢
    show site.walk.emission.keys.foldl _ [] = _
    rw [hRegisters]
    exact Entries.appendAll_of_name _ hSome
  constructor
  case tables =>
    show Entries.keys (mergeTables _) = Entries.keys (mergeTables _)
    rw [Emission.keys_mergeTables_contributions hOther.perm_opened,
      Emission.keys_mergeTables_contributions hSite.perm_opened, hSame.opened_eq hSite hOther]
  case definitions =>
    intro table hNe
    show (mergeTables _).lookup table = (mergeTables _).lookup table
    rw [Emission.lookup_mergeTables_contributions, Emission.lookup_mergeTables_contributions,
      Emission.contributionsTo_eq_of_ne hPasses hOtherPasses (hTable.trans_ne hNe.symm)
        ((hOtherTable.trans hTable).trans_ne hNe.symm)]
  case root =>
    show ((mergeTables _).lookup _).map _ = ((mergeTables _).lookup _).map _
    rw [Emission.lookup_mergeTables_contributions, Emission.lookup_mergeTables_contributions,
      Contributions.merged?_undisplayed, Contributions.merged?_undisplayed,
      Emission.contributionsTo_undisplayed_eq hPasses hOtherPasses hOtherTable
        (hCompiled.table_undisplayed_eq hOtherCompiled hReshapes)
        (hCompiled.contentType_undisplayed_eq hOtherCompiled hReshapes)]
  case parentReferences =>
    show other.walk.emission.references.foldl _ [] = site.walk.emission.references.foldl _ []
    rw [hSame.references_eq hSite hOther]
  case languageKeys =>
    refine ⟨earlier, later, hListed hSite hKeys (by simp [hEarlier]), ?_⟩
    rw [← hSame.context]
    exact hListed hOther hOtherKeys (by simp [hEarlier])

/-! ## Documents with other nodes -/

/-- The site for a document with other authored nodes. -/
def Site.relist (fields : List FieldNode) (site : Site) : Site :=
  { site with context := site.context.relist fields }

theorem Site.walk_relist (fields : List FieldNode) (site : Site) :
    (site.relist fields).walk = Walk.relist fields site.walk :=
  PassContext.relist_compilePass fields site.nodes

theorem Site.succeeds_relist_iff {fields : List FieldNode} {site : Site} :
    (site.relist fields).Succeeds ↔ site.Succeeds := by
  have hResult : (site.relist fields).walk.result = site.walk.result := by
    rw [site.walk_relist]
    rfl
  exact ⟨fun ⟨hNamed, hOk⟩ => ⟨hNamed, hResult ▸ hOk⟩,
    fun ⟨hNamed, hOk⟩ => ⟨hNamed, hResult.trans hOk⟩⟩

namespace PassContext

variable {environment : Environment} {document : SchemaDocument} {context : PassContext}
  {fields : List FieldNode}

/-- The pass over a document with other nodes reads the same otherwise. -/
theorem ofDocument_relist_eq_ok_iff :
    ofDocument environment (document.relist fields) = .ok context ↔
      ∃ own, ofDocument environment document = .ok own ∧ context = own.relist fields := by
  simp only [ofDocument_eq_ok_iff]
  constructor
  · rintro ⟨table, typeName, hTable, hTypeName, rfl⟩
    exact ⟨_, ⟨table, typeName, hTable, hTypeName, rfl⟩, rfl⟩
  · rintro ⟨_, ⟨table, typeName, hTable, hTypeName, rfl⟩, rfl⟩
    exact ⟨table, typeName, hTable, hTypeName, rfl⟩

/-- What is added in front of the nodes of a document does not depend on them,
unless a discriminator column may have to be added. -/
theorem addedNodes_relist (hColumn : context.kind = .recordType → context.typeField = none)
    (typeFields : Entries String) :
    (context.relist fields).addedNodes typeFields = context.addedNodes typeFields := by
  have hKinds : (context.relist fields).kind = context.kind := rfl
  have hFields : (context.relist fields).typeField = context.typeField := rfl
  unfold addedNodes
  rw [hKinds, hFields]
  cases hKind : context.kind with
  | recordType => rw [hColumn hKind]
  | contentElement => rfl
  | pageType => rfl
  | fileType => rfl

/-- The only palette that may be added is the one of a page type. -/
theorem eq_pageTitlePalette_of_mem_addedNodes {node : FieldNode} {typeFields : Entries String}
    (hColumn : context.kind = .recordType → context.typeField = none)
    (hNode : node ∈ context.addedNodes typeFields) :
    context.kind = .pageType ∧ node = pageTitlePalette := by
  unfold addedNodes at hNode
  split at hNode
  case h_1 hKind hField _ =>
    rw [hColumn hKind] at hField
    contradiction
  case h_2 hKind => exact ⟨hKind, List.mem_singleton.mp hNode⟩
  case h_3 => contradiction

end PassContext

section Run

variable {environment : Environment} {document : SchemaDocument}

/-- The site of the pass over a document that is compiled alone. -/
def SchemaDocument.soleSite (document : SchemaDocument) (context : PassContext) : Site :=
  ⟨context, document.rootPath, document.rootNodes context []⟩

/-- A document compiles alone exactly when it is valid and the walk over its site
succeeds. -/
theorem exists_compile_iff_succeeds :
    (∃ result, compile environment [document] = .ok result) ↔
      document.validate = .ok () ∧
        ∃ context, PassContext.ofDocument environment document = .ok context ∧
          (document.soleSite context).Succeeds := by
  simp only [exists_result_iff, runWalk, SchemaDocument.compileAll_cons_result_eq_ok_iff,
    SchemaDocument.compile_result_eq_ok_iff]
  constructor
  · rintro ⟨context, ⟨hValid, hContext, hPass⟩, _⟩
    exact ⟨hValid, context, hContext, PassContext.named_of_ofDocument hValid hContext, hPass⟩
  · rintro ⟨hValid, context, hContext, hSite⟩
    exact ⟨context, ⟨hValid, hContext, hSite.result⟩, rfl⟩

/-- Its result is made of what that walk emits. -/
theorem exists_soleSite_of_compile {result : CompiledResult}
    (hResult : compile environment [document] = .ok result) :
    ∃ context, PassContext.ofDocument environment document = .ok context ∧
      (document.soleSite context).Succeeds ∧
        result = resultOf (document.soleSite context).walk.emission := by
  obtain ⟨_, context, hContext, hSucceeds⟩ := exists_compile_iff_succeeds.mp ⟨result, hResult⟩
  obtain ⟨hRun, rfl⟩ := compile_eq_ok_iff.mp hResult
  have hSite : document.rootSite? environment [] = some (document.soleSite context) :=
    SchemaDocument.rootSite?_eq_some_iff.mpr ⟨context, hContext, rfl⟩
  have hSites := runWalk_sites hRun
  rw [SchemaDocument.rootSites, hSite] at hSites
  refine ⟨context, hContext, hSucceeds, ?_⟩
  -- What was declared for later documents is not part of a result.
  unfold resultOf Emission.contributions Scratch.keep
  rw [hSites.keys, hSites.opened, hSites.passes, hSites.references]
  simp only [SchemaDocument.rootSites, Option.toList_some, List.append_nil,
    List.flatMap_singleton]

end Run

/-! ## Regrouped documents -/

/-- In the document `node` may take the place of the fields `run`: it is a palette
around them, or a tab if there are none, and its identifier is a new one among the
nodes of its kind. -/
structure SchemaDocument.Regrouping (environment : Environment) (document : SchemaDocument)
    (before run after : List FieldNode) (node : FieldNode) (kind : FieldKind) : Prop where
  fields : document.fields = before ++ run ++ after
  /-- The document adds no discriminator column, which might depend on its nodes. -/
  noColumn : document.kind = .recordType → document.typeField = none
  groups : ∀ context, PassContext.ofDocument environment document = .ok context →
    context.Groups node run kind
  hasIdentifier : node.HasIdentifier
  free : ∀ context, PassContext.ofDocument environment document = .ok context →
    node.identifierText ∉ (context.nodesOfKind kind document.fields).map FieldNode.identifierText
  notTitle : document.kind = .pageType → node.identifierText ≠ "page_title"

namespace SchemaDocument.Regrouping

variable {environment : Environment} {document : SchemaDocument} {before run after : List FieldNode}
  {node : FieldNode} {kind : FieldKind} {context : PassContext}
  (hRegrouping : document.Regrouping environment before run after node kind)
  (hContext : PassContext.ofDocument environment document = .ok context)

include hRegrouping hContext

theorem typeField_eq_none (hKind : context.kind = .recordType) : context.typeField = none := by
  have hOf := PassContext.ofDocument_of_eq_ok hContext
  have hDocument : document.kind = .recordType := hOf.kind.symm.trans hKind
  rw [hOf.typeField, typeFieldName, hRegrouping.noColumn hDocument, hDocument]
  rfl

omit hContext in
/-- The site of the document, with the nodes in front among those before. -/
theorem soleSite_eq : document.soleSite context =
    ⟨context, document.rootPath, (context.addedNodes [] ++ before) ++ run ++ after⟩ := by
  rw [soleSite, rootNodes, hRegrouping.fields]
  simp only [List.append_assoc]

/-- The site of the document with the node, related to one in the same context. -/
theorem soleSite_relist_eq :
    (document.relist (before ++ node :: after)).soleSite
        (context.relist (before ++ node :: after)) =
      Site.relist (before ++ node :: after) ⟨context, document.rootPath,
        (context.addedNodes [] ++ before) ++ node :: after⟩ := by
  rw [soleSite, rootNodes,
    PassContext.addedNodes_relist (hRegrouping.typeField_eq_none hContext), List.append_assoc]
  rfl

/-- The identifier is new among the added nodes as well. -/
theorem identifierText_not_mem :
    node.identifierText ∉ (context.nodesOfKind kind
      ((context.addedNodes [] ++ before) ++ run ++ after)).map FieldNode.identifierText := by
  rw [List.append_assoc, List.append_assoc, ← List.append_assoc before, ← hRegrouping.fields,
    PassContext.nodesOfKind, List.filter_append, List.map_append, List.mem_append]
  rintro (hAdded | hAuthored)
  · obtain ⟨added, hMem, hSame⟩ := List.mem_map.mp hAdded
    obtain ⟨hPage, rfl⟩ := PassContext.eq_pageTitlePalette_of_mem_addedNodes
      (hRegrouping.typeField_eq_none hContext) (List.mem_filter.mp hMem).1
    have hKind := (PassContext.ofDocument_of_eq_ok hContext).kind
    exact hRegrouping.notTitle (hKind.symm.trans hPage) hSame.symm
  · exact hRegrouping.free context hContext hAuthored

/-- The walk over the site of the document with the node succeeds exactly when that
over the site of the document does. -/
theorem succeeds_iff :
    (document.soleSite context).Succeeds ↔
      ((document.relist (before ++ node :: after)).soleSite
        (context.relist (before ++ node :: after))).Succeeds := by
  rw [hRegrouping.soleSite_eq, hRegrouping.soleSite_relist_eq hContext, Site.succeeds_relist_iff,
    Site.succeeds_iff_accepts, Site.succeeds_iff_accepts]
  refine and_congr_right fun _ => Iff.symm ?_
  exact (hRegrouping.groups context hContext).accepts_iff hRegrouping.hasIdentifier
    (hRegrouping.identifierText_not_mem hContext)

end SchemaDocument.Regrouping

section Run

variable {environment : Environment} {document : SchemaDocument} {before run after : List FieldNode}
  {node : FieldNode} {kind : FieldKind} {result other : CompiledResult}
  (hRegrouping : document.Regrouping environment before run after node kind)

include hRegrouping

/-- With the node in place of the fields the document compiles exactly when it does
without. -/
theorem exists_compile_iff_of_regrouping :
    (∃ result, compile environment [document] = .ok result) ↔
      ∃ result, compile environment [document.relist (before ++ node :: after)] = .ok result := by
  rw [exists_compile_iff_succeeds, exists_compile_iff_succeeds]
  refine and_congr_right fun _ => ?_
  constructor
  · rintro ⟨context, hContext, hSite⟩
    exact ⟨_, PassContext.ofDocument_relist_eq_ok_iff.mpr ⟨context, hContext, rfl⟩,
      (hRegrouping.succeeds_iff hContext).mp hSite⟩
  · rintro ⟨_, hRelisted, hSite⟩
    obtain ⟨context, hContext, rfl⟩ := PassContext.ofDocument_relist_eq_ok_iff.mp hRelisted
    exact ⟨context, hContext, (hRegrouping.succeeds_iff hContext).mpr hSite⟩

/-- The results differ by what is shown and by the keys of the node. -/
theorem regroups_of_compile (hResult : compile environment [document] = .ok result)
    (hOther : compile environment [document.relist (before ++ node :: after)] = .ok other) :
    ∃ context, PassContext.ofDocument environment document = .ok context ∧
      result.Regroups other document.name context.table
        (context.shapeKeys document.rootPath node) := by
  obtain ⟨context, hContext, hSite, rfl⟩ := exists_soleSite_of_compile hResult
  obtain ⟨_, hRelisted, hRelist, rfl⟩ := exists_soleSite_of_compile hOther
  obtain ⟨own, hOwn, rfl⟩ := PassContext.ofDocument_relist_eq_ok_iff.mp hRelisted
  obtain rfl : own = context := Except.ok.inj (hOwn.symm.trans hContext)
  refine ⟨own, hContext, ?_⟩
  have hGroups := hRegrouping.groups own hContext
  rw [hRegrouping.soleSite_eq] at hSite ⊢
  rw [hRegrouping.soleSite_relist_eq hContext] at hRelist ⊢
  -- The other nodes in the context of the first document.
  let grouped : Site := ⟨own, document.rootPath, (own.addedNodes [] ++ before) ++ node :: after⟩
  have hGrouped : grouped.Succeeds := Site.succeeds_relist_iff.mp hRelist
  have hOtherResult : resultOf (grouped.relist (before ++ node :: after)).walk.emission =
      resultOf grouped.walk.emission := by
    rw [grouped.walk_relist]
    exact Emission.resultOf_relist _ _
  have hTitle : own.titleKeys document.rootPath ≠ [] := by
    rw [PassContext.titleKeys, if_pos (PassContext.ofDocument_of_eq_ok hContext).isRootTable]
    simp
  obtain ⟨hKeys, hGroupedKeys⟩ := hGroups.keys_eq hSite hGrouped
  have hRegroups := hGroups.reshapes.regroups_resultOf hSite hGrouped hKeys hGroupedKeys
    (by simp [hTitle])
  rw [← hOtherResult, show (Site.mk own _ _).context.document = document from
    PassContext.document_of_ofDocument hContext] at hRegroups
  exact hRegroups

/-- **Grouping is presentation.**  A palette around consecutive fields of a document, a
tab or an empty palette does not decide whether the document compiles, and changes
nothing of the result but what the forms of its table show, and its own keys. -/
theorem compile_regrouped :
    ((∃ result, compile environment [document] = .ok result) ↔
      ∃ other, compile environment [document.relist (before ++ node :: after)] = .ok other) ∧
    ∀ result other, compile environment [document] = .ok result →
      compile environment [document.relist (before ++ node :: after)] = .ok other →
        ∃ context, PassContext.ofDocument environment document = .ok context ∧
          result.Regroups other document.name context.table
            (context.shapeKeys document.rootPath node) :=
  ⟨exists_compile_iff_of_regrouping hRegrouping,
    fun _ _ hResult hOther => regroups_of_compile hRegrouping hResult hOther⟩

end Run

/-- The collection of the gallery, in a palette of its own. -/
def mediaPalette : FieldNode :=
  { FieldNode.ofType "media" "Palette" with
    label := some "Media"
    fields :=
      [{ FieldNode.ofType "slides" "Collection" with fields := [.ofType "caption" "Text"] }] }

/-- The palette adds its label to the keys of the gallery. -/
theorem compile_regrouped_gallery :
    ∃ result other, compile galleryEnvironment [gallery] = .ok result ∧
      compile galleryEnvironment
        [gallery.relist (gallery.fields.take 1 ++ mediaPalette :: [])] = .ok other ∧
      result.Regroups other "acme/gallery" "tt_content"
        [gallery.rootPath.entry "palettes.media.label" "Media"] := by
  have hRegrouping : gallery.Regrouping galleryEnvironment (gallery.fields.take 1)
      mediaPalette.fields [] mediaPalette .palette := by
    constructor
    case fields => rfl
    case noColumn => exact fun hKind => absurd hKind (by decide)
    case groups =>
      intro context hContext
      obtain ⟨_, _, _, _, rfl⟩ := PassContext.ofDocument_eq_ok_iff.mp hContext
      refine .palette rfl fun field hField => ?_
      rw [List.mem_singleton.mp hField]
      exact .inr (.inl rfl)
    case hasIdentifier => decide
    case free =>
      intro context hContext
      obtain ⟨_, _, _, _, rfl⟩ := PassContext.ofDocument_eq_ok_iff.mp hContext
      show "media" ∉ ["heading"]
      decide
    case notTitle => exact fun hKind => absurd hKind (by decide)
  obtain ⟨hCompiles, hResults⟩ := compile_regrouped hRegrouping
  obtain ⟨result, hResult⟩ : ∃ result, compile galleryEnvironment [gallery] = .ok result :=
    exists_eq_ok_of_isSome (by decide +kernel)
  obtain ⟨other, hOther⟩ := hCompiles.mp ⟨result, hResult⟩
  obtain ⟨context, hContext, hRegroups⟩ := hResults result other hResult hOther
  refine ⟨result, other, hResult, hOther, ?_⟩
  obtain ⟨table, _, hTable, _, rfl⟩ := PassContext.ofDocument_eq_ok_iff.mp hContext
  obtain rfl : "tt_content" = table := Option.some.inj hTable
  exact hRegroups

end ContentSchema
