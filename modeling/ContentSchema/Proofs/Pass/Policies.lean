import ContentSchema.Proofs.Pass.Keys
import ContentSchema.Proofs.Pass.Reshaping
import ContentSchema.Proofs.Run.Sites

/-!
# Passes under another policy

The policy for generated identifiers is handed down to every pass of a document, and
it is read by those that write the table of the document only.  If every collection
authors another table for its nested nodes, then all passes but the outermost one are
compiled alike under any policy.

* `SchemaDocument.repolicy` gives a document another policy, and `PassContext.repolicy`,
  `Pass.repolicy` and `Site.repolicy` do so for a pass.
* `Site.AuthorsTables` is the condition on the collections below a site.
* `Site.AuthorsTables.succeeds_repolicy_iff` and `keys_repolicy` say that the policy
  decides neither whether a walk succeeds nor which keys it registers.
* `Site.AuthorsTables.exists_passes_repolicy` compares the passes of a walk.

Nothing is said here about the final identifiers of the outermost pass: these do NOT
agree.
-/

namespace ContentSchema

/-! ## Other policies -/

/-- The document with another policy. -/
def SchemaDocument.repolicy (policy : PrefixPolicy) (document : SchemaDocument) :
    SchemaDocument :=
  { document with
    prefixFields := policy.enabled
    prefixStyle := policy.style
    vendorPrefix := policy.vendorPrefix }

/-- The pass for a document with another policy. -/
def PassContext.repolicy (policy : PrefixPolicy) (context : PassContext) : PassContext :=
  { context with
    document := context.document.repolicy policy
    policy }

/-- The finished pass of a document with another policy. -/
def Pass.repolicy (policy : PrefixPolicy) (pass : Pass) : Pass :=
  { pass with context := pass.context.repolicy policy }

/-- The site for a document with another policy. -/
def Site.repolicy (policy : PrefixPolicy) (site : Site) : Site :=
  { site with context := site.context.repolicy policy }

/-! ## Conditions -/

/-- Two passes resolve nodes alike and sort their tables alike. -/
structure PassContext.ReadsAlike (context other : PassContext) : Prop where
  environment : other.environment = context.environment
  table : other.table = context.table
  settings : other.settings = context.settings

namespace PassContext.ReadsAlike

variable {context other : PassContext} (hAlike : context.ReadsAlike other)

include hAlike

theorem symm : other.ReadsAlike context :=
  ⟨hAlike.environment.symm, hAlike.table.symm, hAlike.settings.symm⟩

theorem typeOf?_eq : other.typeOf? = context.typeOf? := by
  funext node
  unfold typeOf? boundType? namedType?
  rw [hAlike.environment, hAlike.table]

theorem kindOf?_eq : other.kindOf? = context.kindOf? := by
  funext node
  rw [kindOf?, hAlike.typeOf?_eq, kindOf?]

theorem hasPass_eq : other.HasPass = context.HasPass := by
  funext node
  unfold HasPass storageOf?
  rw [hAlike.typeOf?_eq]

theorem resolves_eq : other.Resolves = context.Resolves := by
  funext node
  unfold Resolves namedType?
  rw [hAlike.environment, hAlike.table]

theorem fieldNodes_eq : other.fieldNodes = context.fieldNodes := by
  funext nodes
  unfold fieldNodes ownFields paletteFields
  simp only [hAlike.kindOf?_eq]

theorem admitsLeaf {node : FieldNode} (hLeaf : FlexForm.AdmitsLeaf context node) :
    FlexForm.AdmitsLeaf other node := by
  have hField : FlexForm.AdmitsField other = FlexForm.AdmitsField context := by
    funext place node
    unfold FlexForm.AdmitsField
    rw [hAlike.resolves_eq, hAlike.typeOf?_eq]
  unfold FlexForm.AdmitsLeaf at hLeaf ⊢
  rw [hField]
  split at hLeaf
  case isTrue hSection =>
    rw [if_pos hSection]
    obtain ⟨identifier, nonempty, containers, distinct⟩ := hLeaf
    refine ⟨identifier, nonempty, fun container hContainer => ?_, distinct⟩
    obtain ⟨hNamed, hSome, hFields, hApart⟩ := containers container hContainer
    exact ⟨hNamed, hSome, hField ▸ hFields, hApart⟩
  case isFalse hPlain =>
    rw [if_neg hPlain]
    exact hLeaf

theorem wellFormed {nodes : List FieldNode} (hForm : FlexForm.WellFormed context nodes) :
    FlexForm.WellFormed other nodes where
  layout := hForm.layout
  sheets := hForm.sheets
  distinctSheets := hForm.distinctSheets
  leaves := fun leaf hLeaf => hAlike.admitsLeaf (hForm.leaves leaf hLeaf)
  distinctLeaves := hForm.distinctLeaves

/-- Nodes that are admissible in one pass are so in the other. -/
theorem admissible {nodes : List FieldNode} (hNodes : context.Admissible nodes) :
    other.Admissible nodes := by
  have hKind : other.nodesOfKind = context.nodesOfKind := by
    funext kind nodes
    unfold nodesOfKind
    rw [hAlike.kindOf?_eq]
  constructor
  all_goals simp only [hAlike.resolves_eq, hAlike.kindOf?_eq, hAlike.hasPass_eq, hKind,
    hAlike.fieldNodes_eq, hAlike.settings]
  case resolves => exact hNodes.resolves
  case entriesResolve => exact hNodes.entriesResolve
  case linebreaks => exact hNodes.linebreaks
  case nesting => exact hNodes.nesting
  case tabs => exact hNodes.tabs
  case palettes => exact hNodes.palettes
  case fields => exact hNodes.fields
  case forms => exact fun node hNode hFlex => hAlike.wellFormed (hNodes.forms node hNode hFlex)
  case sorting => exact hNodes.sorting
  case settings => exact hNodes.settings

end PassContext.ReadsAlike

namespace PassContext

variable {context : PassContext} {path : LanguagePath} {policy : PrefixPolicy} {node : FieldNode}

theorem readsAlike_repolicy : context.ReadsAlike (context.repolicy policy) :=
  ⟨rfl, rfl, rfl⟩

theorem admissible_repolicy_iff {nodes : List FieldNode} :
    (context.repolicy policy).Admissible nodes ↔ context.Admissible nodes :=
  ⟨readsAlike_repolicy.symm.admissible, readsAlike_repolicy.admissible⟩

/-- The pass over the nested nodes of a collection does not depend on the policy if
the collection authors its table. -/
theorem child?_repolicy (hTable : context.HasPass node → node.table.isSome) :
    (context.repolicy policy).child? node = (context.child? node).map (repolicy policy) := by
  by_cases hPass : context.HasPass node
  · obtain ⟨table, hTable⟩ := Option.isSome_iff_exists.mp (hTable hPass)
    have hMade : (context.repolicy policy).ofCollection node table =
        (context.ofCollection node table).map (repolicy policy) := by
      unfold ofCollection
      cases node.tableSettings <;> rfl
    have hPass' : (context.repolicy policy).HasPass node := hPass
    have hChild (context : PassContext) : context.childTable node = table := by
      rw [childTable, hTable]
      rfl
    rw [child?, if_pos hPass', child?, if_pos hPass, hChild, hChild, hMade]
    cases context.ofCollection node table <;> rfl
  · have hPass' : ¬(context.repolicy policy).HasPass node := hPass
    rw [child?_of_not_hasPass hPass, child?_of_not_hasPass hPass']
    rfl

/-! ## Passes over child tables -/

/-- In a child table the identifiers stay as authored. -/
theorem fieldIdentifier_of_child (hChild : context.isRootTable = false) (node : FieldAttributes)
    (raw : String) : context.fieldIdentifier node raw = .ok raw := by
  simp [fieldIdentifier, assignFieldIdentifier, hChild]

theorem paletteIdentifier_of_child (hChild : context.isRootTable = false)
    (node : FieldAttributes) (raw : String) : context.paletteIdentifier node raw = .ok raw := by
  simp [paletteIdentifier, assignFieldIdentifier, hChild]

section Child

variable (hChild : context.isRootTable = false)

include hChild

theorem makes_of_repolicy {field : CompiledField}
    (hMade : (context.repolicy policy).Makes path node field) : context.Makes path node field := by
  have hOther : (context.repolicy policy).isRootTable = false := hChild
  obtain ⟨type, unique, hType, hUnique, hField⟩ := hMade
  rw [fieldIdentifier_of_child hOther] at hUnique
  exact ⟨type, unique, hType, (fieldIdentifier_of_child hChild _ _).trans hUnique, hField⟩

theorem makesEntry_of_repolicy {entry : PaletteEntry}
    (hMade : (context.repolicy policy).MakesEntry path node entry) :
    context.MakesEntry path node entry := by
  cases hMade with
  | linebreak hKind => exact .linebreak hKind
  | field hKind made => exact .field hKind (makes_of_repolicy hChild made)

/-- In a child table the same becomes of a node under any policy. -/
theorem makesItems_of_repolicy {items : List PassItem}
    (hMade : (context.repolicy policy).MakesItems path node items) :
    context.MakesItems path node items := by
  have hOther : (context.repolicy policy).isRootTable = false := hChild
  cases hMade with
  | tab hKind => exact .tab hKind
  | empty hKind hFields => exact .empty hKind hFields
  | palette hKind hFields named made =>
      rw [paletteIdentifier_of_child hOther] at named
      exact .palette hKind hFields ((paletteIdentifier_of_child hChild _ _).trans named)
        (made.imp fun _ _ => makesEntry_of_repolicy hChild)
  | field hPalette hTab made => exact .field hPalette hTab (makes_of_repolicy hChild made)

end Child

theorem close_repolicy (nodes : List FieldNode) (contentType : ContentType)
    (items : List PassItem) :
    Pass.close (context.repolicy policy) path nodes contentType items =
      (Pass.close context path nodes contentType items).map (Pass.repolicy policy) := by
  have hTable : Pass.tableOf (context.repolicy policy) items = Pass.tableOf context items := rfl
  unfold Pass.close
  rw [hTable]
  cases Pass.tableOf context items <;> rfl

end PassContext

/-- A finished pass over a child table is the same under another policy. -/
theorem Pass.Compiled.eq_repolicy {pass other : Pass} {policy : PrefixPolicy}
    (hPass : pass.Compiled) (hOther : other.Compiled)
    (hSame : other.site = pass.site.repolicy policy)
    (hChild : pass.context.isRootTable = false) : other = pass.repolicy policy := by
  have hContext : other.context = pass.context.repolicy policy := congrArg Site.context hSame
  have hPath : other.path = pass.path := congrArg Site.path hSame
  have hNodes : other.nodes = pass.nodes := congrArg Site.nodes hSame
  have hItems : other.items = pass.items := by
    obtain ⟨chunks, hChunks, hMade⟩ := hPass.exists_chunks
    obtain ⟨others, hOthers, hOtherMade⟩ := hOther.exists_chunks
    rw [hContext, hPath, hNodes] at hOthers
    have hSame : List.Forall₂ (pass.context.MakesItems pass.path) pass.nodes others :=
      hOthers.imp fun _ _ => PassContext.makesItems_of_repolicy hChild
    rw [hMade, hOtherMade, List.right_unique_forall₂' PassContext.makesItems_unique hSame hChunks]
  -- With the same items, nothing that closes a pass reads the policy.
  obtain ⟨contentType, _, hType, _, hClose⟩ := hPass
  obtain ⟨otherType, _, hOtherType, _, hOtherClose⟩ := hOther
  rw [hContext] at hOtherType
  obtain rfl : otherType = contentType := Except.ok.inj (hOtherType.symm.trans hType)
  rw [hContext, hPath, hNodes, hItems, PassContext.close_repolicy] at hOtherClose
  have hTitled : (pass.context.repolicy policy).titledType pass.path otherType =
      pass.context.titledType pass.path otherType := rfl
  rw [hTitled, hClose] at hOtherClose
  exact (Except.ok.inj hOtherClose).symm

/-! ## Sites -/

namespace Site

variable {site : Site} {policy : PrefixPolicy}

/-- The nodes that become fields do not depend on the policy. -/
@[simp] theorem fields_repolicy : (site.repolicy policy).fields = site.fields := rfl

/-- Every collection with nested nodes below the site authors a table for them, and
not the one that the document targets.  Collections without nested nodes have no pass,
so nothing is asked of them. -/
inductive AuthorsTables : Site → Prop where
  | site {site : Site}
      (here : ∀ node ∈ site.fields, site.context.HasPass node →
        ∃ table ∈ node.table, table ≠ site.context.rootTable)
      (below : ∀ child ∈ site.children, AuthorsTables child) : AuthorsTables site

namespace AuthorsTables

theorem authored (hTables : site.AuthorsTables) :
    ∀ node ∈ site.fields, site.context.HasPass node →
      ∃ table ∈ node.table, table ≠ site.context.rootTable := by
  obtain ⟨hHere, _⟩ := hTables
  exact hHere

theorem of_mem_children (hTables : site.AuthorsTables) :
    ∀ child ∈ site.children, child.AuthorsTables := by
  obtain ⟨_, hBelow⟩ := hTables
  exact hBelow

theorem child?_repolicy (hTables : site.AuthorsTables) {node : FieldNode}
    (hNode : node ∈ site.fields) :
    (site.repolicy policy).child? node = (site.child? node).map (Site.repolicy policy) := by
  have hTable (hPass : site.context.HasPass node) : node.table.isSome := by
    obtain ⟨table, hTable, _⟩ := hTables.authored node hNode hPass
    exact Option.isSome_iff_exists.mpr ⟨table, hTable⟩
  have hChild : (site.repolicy policy).context.child? node = _ :=
    PassContext.child?_repolicy hTable
  rw [Site.child?, hChild, Site.child?, Option.map_map, Option.map_map]
  rfl

/-- Under another policy a site leads to the same sites. -/
theorem children_repolicy (hTables : site.AuthorsTables) :
    (site.repolicy policy).children = site.children.map (Site.repolicy policy) := by
  rw [children, fields_repolicy, children, List.map_filterMap]
  exact List.filterMap_congr fun node hNode => hTables.child?_repolicy hNode

/-- The sites that a site leads to are those of passes over child tables. -/
theorem childTable_of_mem_children (hTables : site.AuthorsTables) {child : Site}
    (hChild : child ∈ site.children) :
    child.context.rootTable = site.context.rootTable ∧ child.context.isRootTable = false := by
  obtain ⟨node, hNode, hMade⟩ := List.mem_filterMap.mp hChild
  obtain ⟨context, hContext, rfl⟩ := Option.map_eq_some_iff.mp hMade
  obtain ⟨hPass, _⟩ := PassContext.child?_eq_some_iff.mp hContext
  obtain ⟨table, hTable, hNe⟩ := hTables.authored node hNode hPass
  obtain ⟨settings, rfl⟩ := PassContext.nested_of_child? hContext
  have hName : site.context.childTable node = table := by
    rw [PassContext.childTable, Option.mem_def.mp hTable]
    rfl
  exact ⟨rfl, decide_eq_false fun hSame => hNe (hName.symm.trans hSame)⟩

/-- The policy does not decide whether the walk over a site succeeds. -/
theorem succeeds_repolicy_iff (hTables : site.AuthorsTables) :
    (site.repolicy policy).Succeeds ↔ site.Succeeds := by
  induction site using Site.induction with
  | step site ih =>
      rw [succeeds_iff_children, succeeds_iff_children, hTables.children_repolicy,
        List.forall_mem_map]
      refine and_congr Iff.rfl (and_congr PassContext.admissible_repolicy_iff ?_)
      exact forall₂_congr fun child hChild => ih child hChild (hTables.of_mem_children child hChild)

variable (hTables : site.AuthorsTables) (hSite : site.Succeeds)

include hTables hSite

/-- The policy does not decide which keys the walk over a site registers. -/
theorem keys_repolicy : (site.repolicy policy).keys = site.keys := by
  induction site using Site.induction with
  | step site ih =>
      have hOther : (site.repolicy policy).Succeeds := hTables.succeeds_repolicy_iff.mpr hSite
      have hNested : ∀ node ∈ site.fields,
          (site.repolicy policy).context.nestedKeys site.path node =
            site.context.nestedKeys site.path node := by
        intro node hNode
        have hKeys : (site.repolicy policy).context.nestedKeys site.path node =
            (((site.repolicy policy).child? node).map keys).getD [] := nestedKeys_eq node
        rw [hKeys, nestedKeys_eq, hTables.child?_repolicy hNode]
        cases hMade : site.child? node with
        | none => rfl
        | some child =>
            have hChild : child ∈ site.children := List.mem_filterMap.mpr ⟨node, hNode, hMade⟩
            exact ih child hChild (hTables.of_mem_children child hChild)
              (hSite.of_mem_children hChild)
      rw [keys, hOther.registers_walk.map_snd, keys, hSite.registers_walk.map_snd]
      refine congrArg (site.context.titleKeys site.path ++ ·) ?_
      refine List.flatMap_congr fun node hNode => ?_
      refine congrArg (site.context.shapeKeys site.path node ++ ·) ?_
      refine List.flatMap_congr fun field hField => ?_
      exact congrArg (site.context.fieldKeys site.path field ++ ·)
        (hNested field (List.mem_flatMap.mpr ⟨node, hNode, hField⟩))

theorem opened_repolicy :
    (site.repolicy policy).walk.emission.opened = site.walk.emission.opened := by
  induction site using Site.induction with
  | step site ih =>
      have hOther : (site.repolicy policy).Succeeds := hTables.succeeds_repolicy_iff.mpr hSite
      rw [hOther.opened_walk, hSite.opened_walk, hTables.children_repolicy, List.flatMap_map]
      refine congrArg (site.context.table :: ·) (List.flatMap_congr fun child hChild => ?_)
      exact ih child hChild (hTables.of_mem_children child hChild) (hSite.of_mem_children hChild)

/-- The walk over the site of a child table emits the same passes under another
policy. -/
theorem passes_repolicy_of_child (hChild : site.context.isRootTable = false) :
    (site.repolicy policy).walk.emission.passes =
      site.walk.emission.passes.map (Pass.repolicy policy) := by
  induction site using Site.induction with
  | step site ih =>
      have hOther : (site.repolicy policy).Succeeds := hTables.succeeds_repolicy_iff.mpr hSite
      obtain ⟨own, hCompiled, hOwn, hPasses⟩ := hSite.exists_own
      obtain ⟨other, hOtherCompiled, hOtherOwn, hOtherPasses⟩ := hOther.exists_own
      have hSame : other = own.repolicy policy := by
        apply hCompiled.eq_repolicy hOtherCompiled (by rw [hOtherOwn, hOwn])
        show own.site.context.isRootTable = false
        rw [hOwn]
        exact hChild
      rw [hOtherPasses, hPasses, hSame, List.map_append, hTables.children_repolicy,
        List.flatMap_map, List.map_flatMap]
      refine congrArg (· ++ [own.repolicy policy]) (List.flatMap_congr fun child hMem => ?_)
      exact ih child hMem (hTables.of_mem_children child hMem) (hSite.of_mem_children hMem)
        (hTables.childTable_of_mem_children hMem).2

/-- The passes of the walks that a site leads to write child tables. -/
theorem table_ne_of_mem_passes {child : Site} (hChild : child ∈ site.children) :
    ∀ pass ∈ child.walk.emission.passes, pass.context.table ≠ site.context.rootTable := by
  have hDown : ∀ pass ∈ child.walk.emission.passes, pass.site.AuthorsTables ∧
      pass.site.context.rootTable = site.context.rootTable ∧
        pass.site.context.isRootTable = false := by
    refine (hSite.of_mem_children hChild).forall_mem_passes
      (P := fun other => other.AuthorsTables ∧
        other.context.rootTable = site.context.rootTable ∧ other.context.isRootTable = false) ?_
      ⟨hTables.of_mem_children child hChild, hTables.childTable_of_mem_children hChild⟩
    rintro outer node inner hNode hMade ⟨hOuter, hRoot, _⟩
    have hInner : inner ∈ outer.children := List.mem_filterMap.mpr ⟨node, hNode, hMade⟩
    obtain ⟨hInnerRoot, hInnerTable⟩ := hOuter.childTable_of_mem_children hInner
    exact ⟨hOuter.of_mem_children inner hInner, hInnerRoot.trans hRoot, hInnerTable⟩
  intro pass hPass
  obtain ⟨_, hRoot, hTable⟩ := hDown pass hPass
  rw [← hRoot]
  exact of_decide_eq_false hTable

/-- Under another policy a walk emits the same passes over child tables, and then its
own pass. -/
theorem exists_passes_repolicy (policy : PrefixPolicy) : ∃ nested own other,
    site.walk.emission.passes = nested ++ [own] ∧
      (site.repolicy policy).walk.emission.passes =
        nested.map (Pass.repolicy policy) ++ [other] ∧
      (∀ pass ∈ nested, pass.context.table ≠ site.context.rootTable) ∧
      (own.Compiled ∧ own.site = site) ∧ other.Compiled ∧ other.site = site.repolicy policy := by
  have hOther : (site.repolicy policy).Succeeds := hTables.succeeds_repolicy_iff.mpr hSite
  obtain ⟨own, hCompiled, hOwn, hPasses⟩ := hSite.exists_own
  obtain ⟨other, hOtherCompiled, hOtherOwn, hOtherPasses⟩ := hOther.exists_own
  refine ⟨_, own, other, hPasses, ?_, ?_, ⟨hCompiled, hOwn⟩, hOtherCompiled, hOtherOwn⟩
  · rw [hOtherPasses, hTables.children_repolicy, List.flatMap_map, List.map_flatMap]
    refine congrArg (· ++ [other]) (List.flatMap_congr fun child hMem => ?_)
    exact (hTables.of_mem_children child hMem).passes_repolicy_of_child
      (hSite.of_mem_children hMem) (hTables.childTable_of_mem_children hMem).2
  · intro pass hPass
    obtain ⟨child, hChild, hMem⟩ := List.mem_flatMap.mp hPass
    exact hTables.table_ne_of_mem_passes hSite hChild pass hMem

end AuthorsTables

end Site
end ContentSchema
