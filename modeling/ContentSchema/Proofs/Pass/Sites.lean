import ContentSchema.Proofs.Pass.Nesting
import Mathlib.Data.List.Perm.Basic

/-!
# The tree of passes

A pass stands at a site: what it reads, its position and the nodes that it
visits.  The collections among its fields lead to further sites, and a walk that
succeeds emits the passes of all sites below its own, the innermost first.

* `Site.induction` is induction over the tree of sites.
* `Site.Succeeds.exists_passes_eq` says which passes a walk emits.
* `Site.Succeeds.forall_mem_passes` carries a statement down to all of them.
* `Site.Succeeds.mem_references_iff` reads the references off the passes.

A pass that is embedded in another one does NOT have to write another table.
-/

namespace ContentSchema

/-! ## Sites -/

/-- Where a pass stands: what it reads, its position and the nodes that it
visits. -/
structure Site where
  context : PassContext
  path : LanguagePath
  nodes : List FieldNode

/-- The site of a pass. -/
def Pass.site (pass : Pass) : Site :=
  ⟨pass.context, pass.path, pass.nodes⟩

namespace Site

/-- The nodes that become fields of the pass at the site. -/
def fields (site : Site) : List FieldNode :=
  site.context.fieldNodes site.nodes

/-- The site of the nested nodes of a collection. -/
def child? (site : Site) (node : FieldNode) : Option Site :=
  (site.context.child? node).map fun child =>
    ⟨child, site.path.push node.identifierText, node.fields⟩

/-- The sites that the fields of a site lead to, in order. -/
def children (site : Site) : List Site :=
  site.fields.filterMap site.child?

/-- The walk over the nodes of a site. -/
def walk (site : Site) : Walk Unit :=
  site.context.compilePass site.path site.nodes (PassContext.nodesWalk site.nodes)

/-- A field of a site is one of its nodes or stands in one of its palettes. -/
theorem mem_nodes_or_palette {site : Site} {node : FieldNode} (hNode : node ∈ site.fields) :
    node ∈ site.nodes ∨ ∃ palette ∈ site.nodes, node ∈ palette.fields := by
  obtain ⟨top, hTop, hOwn⟩ := List.mem_flatMap.mp hNode
  unfold PassContext.ownFields at hOwn
  split at hOwn
  case h_1 => exact .inr ⟨top, hTop, (List.mem_filter.mp hOwn).1⟩
  case h_2 => contradiction
  case h_3 =>
    rw [List.mem_singleton.mp hOwn]
    exact .inl hTop

theorem nodes_of_child? {site child : Site} {node : FieldNode}
    (hChild : site.child? node = some child) : child.nodes = node.fields := by
  obtain ⟨_, _, rfl⟩ := Option.map_eq_some_iff.mp hChild
  rfl

/-- A statement about sites follows once it follows from the sites that a site
leads to. -/
theorem induction {P : Site → Prop}
    (step : ∀ site : Site, (∀ child ∈ site.children, P child) → P site) (site : Site) :
    P site := by
  -- A site leads to the nested nodes of its nodes, or of those one level further in.
  have hNodes (node : FieldNode) :
      (∀ site : Site, site.nodes = node.fields → P site) ∧
        ∀ inner ∈ node.fields, ∀ site : Site, site.nodes = inner.fields → P site := by
    induction node using FieldNode.induction with
    | step node hNested =>
        refine ⟨?_, fun inner hInner => (hNested inner hInner).1⟩
        intro site hSite
        apply step
        intro child hChild
        obtain ⟨field, hField, hMade⟩ := List.mem_filterMap.mp hChild
        have hFields := nodes_of_child? hMade
        rcases mem_nodes_or_palette hField with hTop | ⟨palette, hPalette, hEntry⟩
        · rw [hSite] at hTop
          exact (hNested field hTop).1 child hFields
        · rw [hSite] at hPalette
          exact (hNested palette hPalette).2 field hEntry child hFields
  apply step
  intro child hChild
  obtain ⟨field, _, hMade⟩ := List.mem_filterMap.mp hChild
  exact (hNodes field).1 child (nodes_of_child? hMade)

/-! ## Walks over sites -/

/-- The walk over the site succeeds, for a document whose name has two parts. -/
structure Succeeds (site : Site) : Prop where
  named : site.context.Named
  result : site.walk.result = .ok ()

variable {site : Site}

/-- The walk over a site succeeds exactly when its nodes are accepted. -/
theorem succeeds_iff_accepts :
    site.Succeeds ↔ site.context.Named ∧ site.context.Accepts site.nodes := by
  have hPass (hNamed : site.context.Named) :
      site.walk.result = .ok () ↔ site.context.Accepts site.nodes :=
    PassContext.compilePass_succeeds_iff (fun node _ => PassContext.compiles node) hNamed
  exact ⟨fun hSite => ⟨hSite.named, (hPass hSite.named).mp hSite.result⟩,
    fun ⟨hNamed, hAccepts⟩ => ⟨hNamed, (hPass hNamed).mpr hAccepts⟩⟩

/-- The nodes of a site where the walk succeeds are admitted. -/
theorem Succeeds.admissible (hSite : site.Succeeds) : site.context.Admissible site.nodes := by
  obtain ⟨_, hHere, _⟩ := succeeds_iff_accepts.mp hSite
  exact hHere

/-- A walk succeeds only if the walks that it leads to do. -/
theorem Succeeds.child (hSite : site.Succeeds) {child : Site} {node : FieldNode}
    (hNode : node ∈ site.fields) (hChild : site.child? node = some child) : child.Succeeds := by
  obtain ⟨context, hContext, rfl⟩ := Option.map_eq_some_iff.mp hChild
  obtain ⟨hPass, hMade⟩ := PassContext.child?_eq_some_iff.mp hContext
  have hNamed : context.Named := hSite.named.ofCollection hMade
  -- The walk over the outer nodes is accepted, and so is everything below it.
  obtain ⟨_, _, hBelow⟩ := succeeds_iff_accepts.mp hSite
  have hOpens : site.context.Opens node context :=
    ⟨hPass, _, PassContext.fieldIdentifier_eq hSite.named node, hMade⟩
  exact succeeds_iff_accepts.mpr ⟨hNamed, hBelow node hNode context hOpens⟩

theorem Succeeds.of_mem_children (hSite : site.Succeeds) {child : Site}
    (hChild : child ∈ site.children) : child.Succeeds := by
  obtain ⟨node, hNode, hMade⟩ := List.mem_filterMap.mp hChild
  exact hSite.child hNode hMade

/-- The walk over a site succeeds exactly when its nodes are admitted and the walks
that it leads to succeed. -/
theorem succeeds_iff_children :
    site.Succeeds ↔ site.context.Named ∧ site.context.Admissible site.nodes ∧
      ∀ child ∈ site.children, child.Succeeds := by
  constructor
  · intro hSite
    exact ⟨hSite.named, hSite.admissible, fun _ hChild => hSite.of_mem_children hChild⟩
  · rintro ⟨hNamed, hHere, hBelow⟩
    refine succeeds_iff_accepts.mpr ⟨hNamed, .pass hHere ?_⟩
    rintro node hNode child ⟨hPass, unique, hUnique, hMade⟩
    rw [PassContext.fieldIdentifier_eq hNamed] at hUnique
    obtain rfl := Except.ok.inj hUnique
    have hChild : site.child? node =
        some ⟨child, site.path.push node.identifierText, node.fields⟩ := by
      rw [child?, PassContext.child?_of_ofCollection hPass hMade]
      rfl
    have hSucceeds := hBelow _ (List.mem_filterMap.mpr ⟨node, hNode, hChild⟩)
    exact (succeeds_iff_accepts.mp hSucceeds).2

/-- A successful walk opens its table, emits what its fields emit one after
another, and ends with its own pass. -/
theorem Succeeds.unlabelled_walk (hSite : site.Succeeds) :
    ∃ pass : Pass, pass.site = site ∧
      site.walk.emission.unlabelled =
        { opened := [site.context.table] } ++
          .concat (site.fields.map (site.context.emitted site.path)) ++ { passes := [pass] } := by
  obtain ⟨_, items, pass, _, hItems, hClose, hEmission⟩ :=
    PassContext.unlabelled_compilePass hSite.result
  obtain ⟨_, hNodes⟩ := PassContext.nodesWalk_result_eq_ok_iff.mp hItems
  obtain ⟨_, _, hMade⟩ := Pass.close_eq_ok_iff.mp hClose
  refine ⟨pass, by rw [hMade]; rfl, ?_⟩
  unfold walk
  rw [hEmission, PassContext.nodesWalk, Walk.unlabelled_map hNodes,
    PassContext.unlabelled_compileNodes hSite.named hNodes]
  rfl

theorem passes_emitted (node : FieldNode) :
    (site.context.emitted site.path node).passes =
      ((site.child? node).map fun child => child.walk.emission.passes).getD [] := by
  unfold PassContext.emitted child?
  cases site.context.child? node <;> rfl

theorem references_emitted (node : FieldNode) :
    (site.context.emitted site.path node).references =
      (site.context.reference? site.path node).toList ++
        ((site.child? node).map fun child => child.walk.emission.references).getD [] := by
  unfold PassContext.emitted child?
  cases site.context.child? node <;> rfl

theorem opened_emitted (node : FieldNode) :
    (site.context.emitted site.path node).opened =
      ((site.child? node).map fun child => child.walk.emission.opened).getD [] := by
  unfold PassContext.emitted child?
  cases site.context.child? node <;> rfl

/-- What is listed for the fields that lead to a site is listed for the sites
that they lead to. -/
theorem flatMap_child? {α : Type} (list : Site → List α) :
    (site.fields.flatMap fun node => ((site.child? node).map list).getD []) =
      site.children.flatMap list := by
  simp only [children, List.flatMap_def]
  induction site.fields with
  | nil => rfl
  | cons node rest ih =>
      rw [List.map_cons, List.flatten_cons, ih, List.filterMap_cons]
      cases site.child? node <;> rfl

/-- The nested passes of a walk come before its own. -/
theorem Succeeds.passes_walk (hSite : site.Succeeds) :
    ∃ own : Pass, own.site = site ∧
      site.walk.emission.passes =
        site.children.flatMap (fun child => child.walk.emission.passes) ++ [own] := by
  obtain ⟨own, hOwn, hEmission⟩ := hSite.unlabelled_walk
  refine ⟨own, hOwn, ?_⟩
  have hPasses := congrArg Emission.passes hEmission
  rw [Emission.passes_append, Emission.passes_append, Emission.passes_concat,
    List.flatMap_map] at hPasses
  simp only [passes_emitted, flatMap_child?] at hPasses
  exact hPasses

/-- A walk that succeeds ends with its own pass, which is a compiled one. -/
theorem Succeeds.exists_own (hSite : site.Succeeds) : ∃ own : Pass,
    own.Compiled ∧ own.site = site ∧
      site.walk.emission.passes =
        site.children.flatMap (fun child => child.walk.emission.passes) ++ [own] := by
  obtain ⟨own, hOwn, hPasses⟩ := hSite.passes_walk
  have hCompiled : Walk.AllPasses Pass.Compiled site.walk :=
    PassContext.allPasses_compilePass fun node _ => PassContext.emitsCompiled node
  exact ⟨own, hCompiled own (by simp [hPasses]), hOwn, hPasses⟩

/-- The table of a walk is opened before those of its nested passes. -/
theorem Succeeds.opened_walk (hSite : site.Succeeds) :
    site.walk.emission.opened =
      site.context.table :: site.children.flatMap fun child => child.walk.emission.opened := by
  obtain ⟨_, _, hEmission⟩ := hSite.unlabelled_walk
  have hOpened := congrArg Emission.opened hEmission
  rw [Emission.opened_append, Emission.opened_append, Emission.opened_concat,
    List.flatMap_map] at hOpened
  simp only [opened_emitted, flatMap_child?, List.append_nil, List.singleton_append] at hOpened
  exact hOpened

theorem Succeeds.references_walk (hSite : site.Succeeds) :
    site.walk.emission.references = site.fields.flatMap fun node =>
      (site.context.reference? site.path node).toList ++
        ((site.child? node).map fun child => child.walk.emission.references).getD [] := by
  obtain ⟨_, _, hEmission⟩ := hSite.unlabelled_walk
  have hReferences := congrArg Emission.references hEmission
  rw [Emission.references_append, Emission.references_append, Emission.references_concat,
    List.flatMap_map] at hReferences
  simp only [references_emitted, List.append_nil] at hReferences
  exact hReferences

end Site

/-! ## Trees of passes -/

/-- `inner` is the pass over the nested nodes of the collection `node` of
`outer`. -/
structure Pass.Embeds (outer : Pass) (node : FieldNode) (inner : Pass) : Prop where
  field : node ∈ outer.site.fields
  child : outer.site.child? node = some inner.site

namespace Site

/-- What the passes of a walk are like: the last one is that of the site, every
other one is embedded in one of them, and every collection embeds one. -/
structure Nests (site : Site) (nested : List Pass) (own : Pass) : Prop where
  last : own.site = site
  embedded : ∀ inner ∈ nested, ∃ outer ∈ nested ++ [own], ∃ node, outer.Embeds node inner
  complete : ∀ outer ∈ nested ++ [own], ∀ node ∈ outer.site.fields, ∀ child,
    outer.site.child? node = some child → ∃ inner ∈ nested, inner.site = child

variable {site : Site}

theorem Succeeds.exists_passes_eq (hSite : site.Succeeds) :
    ∃ nested own, site.walk.emission.passes = nested ++ [own] ∧ site.Nests nested own := by
  induction site using Site.induction with
  | step site ih =>
      obtain ⟨own, hOwn, hPasses⟩ := hSite.passes_walk
      refine ⟨_, own, hPasses, hOwn, ?_, ?_⟩
      · intro inner hInner
        obtain ⟨child, hChild, hInChild⟩ := List.mem_flatMap.mp hInner
        obtain ⟨node, hNode, hMade⟩ := List.mem_filterMap.mp hChild
        obtain ⟨nested, last, hEq, hNests⟩ := ih child hChild (hSite.child hNode hMade)
        rw [hEq] at hInChild
        rcases List.mem_append.mp hInChild with hDeeper | hLast
        · obtain ⟨outer, hOuter, embedding, hEmbeds⟩ := hNests.embedded inner hDeeper
          rw [← hEq] at hOuter
          exact ⟨outer, List.mem_append_left _ (List.mem_flatMap.mpr ⟨child, hChild, hOuter⟩),
            embedding, hEmbeds⟩
        · rw [List.mem_singleton.mp hLast]
          refine ⟨own, List.mem_append_right _ (List.mem_singleton.mpr rfl), node, ?_⟩
          exact ⟨by rw [hOwn]; exact hNode, by rw [hOwn, hNests.last]; exact hMade⟩
      · intro outer hOuter node hNode child hChild
        rcases List.mem_append.mp hOuter with hNested | hLast
        · obtain ⟨above, hAbove, hInAbove⟩ := List.mem_flatMap.mp hNested
          obtain ⟨nested, last, hEq, hNests⟩ := ih above hAbove (hSite.of_mem_children hAbove)
          rw [hEq] at hInAbove
          obtain ⟨inner, hInner, hFound⟩ := hNests.complete outer hInAbove node hNode child hChild
          have hMem : inner ∈ above.walk.emission.passes := by
            rw [hEq]
            exact List.mem_append_left _ hInner
          exact ⟨inner, List.mem_flatMap.mpr ⟨above, hAbove, hMem⟩, hFound⟩
        · rw [List.mem_singleton.mp hLast, hOwn] at hNode hChild
          have hMem : child ∈ site.children := List.mem_filterMap.mpr ⟨node, hNode, hChild⟩
          obtain ⟨nested, last, hEq, hNests⟩ := ih child hMem (hSite.child hNode hChild)
          refine ⟨last, List.mem_flatMap.mpr ⟨child, hMem, ?_⟩, hNests.last⟩
          rw [hEq]
          exact List.mem_append_right _ (List.mem_singleton.mpr rfl)

/-- A statement about sites that is handed on to nested ones holds of every pass
of a walk. -/
theorem Succeeds.forall_mem_passes (hSite : site.Succeeds) {P : Site → Prop}
    (hDown : ∀ outer node inner, node ∈ outer.fields → outer.child? node = some inner →
      P outer → P inner)
    (hHere : P site) : ∀ pass ∈ site.walk.emission.passes, P pass.site := by
  induction site using Site.induction with
  | step site ih =>
      obtain ⟨own, hOwn, hPasses⟩ := hSite.passes_walk
      intro pass hPass
      rw [hPasses] at hPass
      rcases List.mem_append.mp hPass with hNested | hLast
      · obtain ⟨child, hChild, hInChild⟩ := List.mem_flatMap.mp hNested
        obtain ⟨node, hNode, hMade⟩ := List.mem_filterMap.mp hChild
        exact ih child hChild (hSite.child hNode hMade) (hDown site node child hNode hMade hHere)
          pass hInChild
      · rw [List.mem_singleton.mp hLast, hOwn]
        exact hHere

/-- Every pass of a walk that succeeds stands at a site whose walk succeeds. -/
theorem Succeeds.of_mem_passes (hSite : site.Succeeds) {pass : Pass}
    (hPass : pass ∈ site.walk.emission.passes) : pass.site.Succeeds :=
  hSite.forall_mem_passes (fun _ _ _ hNode hMade hOuter => hOuter.child hNode hMade) hSite pass
    hPass

/-- A walk that succeeds opens the tables of its passes, in another order. -/
theorem Succeeds.perm_opened (hSite : site.Succeeds) :
    site.walk.emission.opened.Perm
      (site.walk.emission.passes.map fun pass => pass.context.table) := by
  induction site using Site.induction with
  | step site ih =>
      obtain ⟨own, hOwn, hPasses⟩ := hSite.passes_walk
      have hTable : own.context.table = site.context.table := by
        rw [← hOwn]
        rfl
      have hNested : (site.children.flatMap fun child => child.walk.emission.opened).Perm
          (site.children.flatMap fun child =>
            child.walk.emission.passes.map fun pass => pass.context.table) :=
        List.Perm.flatMap_left _ fun child hChild => ih child hChild (hSite.of_mem_children hChild)
      rw [hSite.opened_walk, hPasses, List.map_append, List.map_flatMap, List.map_singleton,
        hTable]
      exact (List.perm_append_singleton _ _).symm.trans (hNested.append_right _)

/-- The nested nodes of a collection have a site where the walk succeeds. -/
theorem Succeeds.exists_child? (hSite : site.Succeeds) {node : FieldNode}
    (hNode : node ∈ site.fields) (hPass : site.context.HasPass node) :
    ∃ child, site.child? node = some child := by
  obtain ⟨child, hChild⟩ := PassContext.exists_ofCollection_iff.mpr
    (hSite.admissible.settings node hNode hPass)
  exact ⟨_, by rw [child?, PassContext.child?_of_ofCollection hPass hChild]; rfl⟩

/-- The references of a walk are those of the fields of its passes. -/
theorem Succeeds.mem_references_iff (hSite : site.Succeeds)
    {reference : String × CompiledField} :
    reference ∈ site.walk.emission.references ↔
      ∃ pass ∈ site.walk.emission.passes, ∃ node ∈ pass.site.fields,
        pass.context.reference? pass.path node = some reference := by
  induction site using Site.induction with
  | step site ih =>
      obtain ⟨own, hOwn, hPasses⟩ := hSite.passes_walk
      rw [hSite.references_walk, hPasses]
      constructor
      · intro hReference
        obtain ⟨node, hNode, hFrom⟩ := List.mem_flatMap.mp hReference
        rcases List.mem_append.mp hFrom with hHere | hNested
        · refine ⟨own, List.mem_append_right _ (List.mem_singleton.mpr rfl), node, ?_, ?_⟩
          · rw [hOwn]
            exact hNode
          · show own.site.context.reference? own.site.path node = some reference
            rw [hOwn]
            exact Option.mem_toList.mp hHere
        · cases hMade : site.child? node with
          | none =>
              rw [hMade] at hNested
              contradiction
          | some child =>
              rw [hMade] at hNested
              have hChild : child ∈ site.children := List.mem_filterMap.mpr ⟨node, hNode, hMade⟩
              obtain ⟨pass, hPass, hRest⟩ :=
                (ih child hChild (hSite.child hNode hMade)).mp hNested
              exact ⟨pass, List.mem_append_left _ (List.mem_flatMap.mpr ⟨child, hChild, hPass⟩),
                hRest⟩
      · rintro ⟨pass, hPass, node, hNode, hReference⟩
        rcases List.mem_append.mp hPass with hNested | hLast
        · obtain ⟨child, hChild, hInChild⟩ := List.mem_flatMap.mp hNested
          obtain ⟨field, hField, hMade⟩ := List.mem_filterMap.mp hChild
          have hIn := (ih child hChild (hSite.child hField hMade)).mpr
            ⟨pass, hInChild, node, hNode, hReference⟩
          refine List.mem_flatMap.mpr ⟨field, hField, List.mem_append_right _ ?_⟩
          rw [hMade]
          exact hIn
        · obtain rfl := List.mem_singleton.mp hLast
          rw [← hOwn]
          exact List.mem_flatMap.mpr ⟨node, hNode,
            List.mem_append_left _ (Option.mem_toList.mpr hReference)⟩

end Site
end ContentSchema
