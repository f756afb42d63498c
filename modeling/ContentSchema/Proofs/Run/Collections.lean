import ContentSchema.Proofs.Run.Sites

/-!
# Collections of a run

The collections of a run are told by its documents alone: in pre-order of the
field tree, the entries of a palette in its place, and the nested nodes of a
collection right after it.

* `PassContext.collectionsAmong` lists the collections among the nodes of a pass
  and below them, by recursion on the tree.
* `Site.Succeeds.references_collections` says that a walk refers to each of them
  once, in this order.
* `Site.Succeeds.opened_collections` says that it opens the tables of those with
  nested nodes, in this order.
* `mem_runCollections_iff` identifies them with the collections of all passes.

A nested form is a single field here: what stands inside it is NOT a field of
any pass and is not searched for collections.
-/

namespace ContentSchema

/-- A collection of the authored tree, with what the pass that it is a field of
reads. -/
structure CollectionField where
  context : PassContext
  node : FieldNode

namespace CollectionField

/-- The final identifier of the field. -/
def name (collection : CollectionField) : String :=
  collection.context.fieldName collection.node

/-- The table that the collection refers to: the authored one, else one with the
name of the field. -/
def childTable (collection : CollectionField) : String :=
  collection.node.table.getD collection.name

/-- The column of that table that points back: the authored one, else the default. -/
def foreignField (collection : CollectionField) : String :=
  collection.node.foreignField.getD defaultForeignField

/-- The collection has nested nodes, so that its table is written here; the table
of any other one is external. -/
def embeds (collection : CollectionField) : Bool :=
  !collection.node.fields.isEmpty

end CollectionField

/-! ## Collections of a pass -/

namespace PassContext

/-- What a pass over the nested nodes of a field reads.  Settings that cannot be
read count as none. -/
def inner (context : PassContext) (node : FieldNode) : PassContext :=
  context.nested node (node.tableSettings.toOption.getD {})

/-- A field and what is below it, if it is a collection. -/
def ownCollections (context : PassContext) (node : FieldNode) (below : List CollectionField) :
    List CollectionField :=
  if context.storageOf? node = some .inline then ⟨context, node⟩ :: below else []

mutual

/-- The collections among the nodes of a pass and below them. -/
def collectionsAmong (context : PassContext) : List FieldNode → List CollectionField
  | [] => []
  | node :: rest => collectionsOf context node ++ collectionsAmong context rest

/-- The collections that one node of a pass contributes. -/
def collectionsOf (context : PassContext) : FieldNode → List CollectionField
  | ⟨attributes, fields, container⟩ =>
      let node : FieldNode := ⟨attributes, fields, container⟩
      match context.kindOf? node with
      | some .palette => collectionsInside context fields
      | some .tab => []
      | _ => context.ownCollections node (collectionsAmong (context.inner node) fields)

/-- The collections among the entries of a palette and below them. -/
def collectionsInside (context : PassContext) : List FieldNode → List CollectionField
  | [] => []
  | node :: rest => collectionsOfEntry context node ++ collectionsInside context rest

/-- The collections that one entry of a palette contributes. -/
def collectionsOfEntry (context : PassContext) : FieldNode → List CollectionField
  | ⟨attributes, fields, container⟩ =>
      let node : FieldNode := ⟨attributes, fields, container⟩
      if context.kindOf? node = some .linebreak then []
      else context.ownCollections node (collectionsAmong (context.inner node) fields)

end

/-- The collections that one field of a pass contributes: itself and those below
it. -/
def collectionsFrom (context : PassContext) (node : FieldNode) : List CollectionField :=
  context.ownCollections node ((context.inner node).collectionsAmong node.fields)

variable {context : PassContext}

theorem collectionsInside_eq (entries : List FieldNode) :
    context.collectionsInside entries =
      (context.paletteFields entries).flatMap context.collectionsFrom := by
  induction entries with
  | nil => simp [collectionsInside, paletteFields]
  | cons node rest ih =>
      rw [collectionsInside, ih, paletteFields_cons rest, List.flatMap_append]
      congr 1
      obtain ⟨attributes, fields, container⟩ := node
      unfold collectionsOfEntry paletteFields
      by_cases hKind : context.kindOf? ⟨attributes, fields, container⟩ = some .linebreak
      · simp [hKind]
      · simp [hKind, collectionsFrom]

theorem collectionsOf_eq (node : FieldNode) :
    context.collectionsOf node = (context.ownFields node).flatMap context.collectionsFrom := by
  obtain ⟨attributes, fields, container⟩ := node
  unfold collectionsOf ownFields
  dsimp only
  cases context.kindOf? ⟨attributes, fields, container⟩ with
  | none => exact (List.flatMap_singleton _ _).symm
  | some kind =>
      cases kind with
      | palette => exact collectionsInside_eq fields
      | tab => rfl
      | _ => exact (List.flatMap_singleton _ _).symm

/-- The collections of a pass are those of its fields, one after another. -/
theorem collectionsAmong_eq (nodes : List FieldNode) :
    context.collectionsAmong nodes =
      (context.fieldNodes nodes).flatMap context.collectionsFrom := by
  induction nodes with
  | nil => rfl
  | cons node rest ih =>
      rw [collectionsAmong, ih, collectionsOf_eq, fieldNodes, fieldNodes, List.flatMap_cons,
        List.flatMap_append]

theorem inner_of_child? {child : PassContext} {node : FieldNode}
    (hChild : context.child? node = some child) : child = context.inner node := by
  obtain ⟨_, hMade⟩ := child?_eq_some_iff.mp hChild
  unfold ofCollection at hMade
  unfold inner
  cases hSettings : node.tableSettings with
  | error e =>
      rw [hSettings] at hMade
      contradiction
  | ok settings =>
      rw [hSettings] at hMade
      exact (Except.ok.inj hMade).symm

end PassContext

/-! ## Collections of a walk -/

/-- The collection is referred to with its own field, compiled at some position. -/
def CollectionField.Refers (collection : CollectionField) (reference : String × CompiledField) :
    Prop :=
  ∃ path, collection.context.reference? path collection.node = some reference

namespace Site

/-- The collections among the nodes of a site and below them. -/
def collections (site : Site) : List CollectionField :=
  site.context.collectionsAmong site.nodes

/-- What a field of a site is to the tree of passes: it is no collection, one with
an external table, or one with nested nodes, which have a site of their own. -/
inductive FieldCase (site : Site) (node : FieldNode) : Prop where
  | plain (storage : site.context.storageOf? node ≠ some .inline)
      (child : site.child? node = none)
  | external (storage : site.context.storageOf? node = some .inline) (fields : node.fields = [])
      (child : site.child? node = none)
  | embedding (storage : site.context.storageOf? node = some .inline)
      (fields : node.fields ≠ []) (child : Site) (mem : child ∈ site.children)
      (made : site.child? node = some child)
      (context : child.context = site.context.inner node) (nodes : child.nodes = node.fields)

variable {site : Site}

theorem Succeeds.fieldCase (hSite : site.Succeeds) {node : FieldNode}
    (hNode : node ∈ site.fields) : site.FieldCase node := by
  by_cases hPass : site.context.HasPass node
  · obtain ⟨child, hChild⟩ := hSite.exists_child? hNode hPass
    have hMem : child ∈ site.children := List.mem_filterMap.mpr ⟨node, hNode, hChild⟩
    obtain ⟨context, hContext, rfl⟩ := Option.map_eq_some_iff.mp hChild
    exact .embedding hPass.1 hPass.2 _ hMem hChild (PassContext.inner_of_child? hContext) rfl
  · have hNone : site.child? node = none := by
      rw [child?, PassContext.child?_of_not_hasPass hPass]
      rfl
    by_cases hStorage : site.context.storageOf? node = some .inline
    · have hFields : node.fields = [] := by
        by_contra hFields
        exact hPass ⟨hStorage, hFields⟩
      exact .external hStorage hFields hNone
    · exact .plain hStorage hNone

theorem collections_eq (site : Site) :
    site.collections = site.fields.flatMap site.context.collectionsFrom :=
  PassContext.collectionsAmong_eq site.nodes

theorem collectionsFrom_of_plain {node : FieldNode}
    (hStorage : site.context.storageOf? node ≠ some .inline) :
    site.context.collectionsFrom node = [] :=
  if_neg hStorage

theorem collectionsFrom_of_external {node : FieldNode}
    (hStorage : site.context.storageOf? node = some .inline) (hFields : node.fields = []) :
    site.context.collectionsFrom node = [⟨site.context, node⟩] := by
  rw [PassContext.collectionsFrom, PassContext.ownCollections, if_pos hStorage, hFields]
  rfl

theorem collectionsFrom_of_embedding {node : FieldNode} {child : Site}
    (hStorage : site.context.storageOf? node = some .inline)
    (hContext : child.context = site.context.inner node) (hNodes : child.nodes = node.fields) :
    site.context.collectionsFrom node = ⟨site.context, node⟩ :: child.collections := by
  rw [PassContext.collectionsFrom, PassContext.ownCollections, if_pos hStorage, collections,
    hContext, hNodes]

/-- A collection is referred to with the field that it is compiled into. -/
theorem exists_reference? {node : FieldNode}
    (hStorage : site.context.storageOf? node = some .inline) :
    ∃ reference, site.context.reference? site.path node = some reference := by
  obtain ⟨type, hType, hInline⟩ := Option.map_eq_some_iff.mp hStorage
  exact ⟨_, by rw [PassContext.reference?, hType]; exact if_pos hInline⟩

theorem reference?_of_plain {node : FieldNode}
    (hStorage : site.context.storageOf? node ≠ some .inline) :
    site.context.reference? site.path node = none := by
  unfold PassContext.reference?
  cases hType : site.context.typeOf? node with
  | none => rfl
  | some type =>
      exact if_neg fun hInline =>
        hStorage (by rw [PassContext.storageOf?_of_typeOf? hType, hInline])

/-- A walk that succeeds refers to the collections below its site once each, in
pre-order. -/
theorem Succeeds.references_collections (hSite : site.Succeeds) :
    List.Forall₂ CollectionField.Refers site.collections site.walk.emission.references := by
  induction site using Site.induction with
  | step site ih =>
      rw [collections_eq, hSite.references_walk]
      refine List.rel_flatMap (R := fun node other => node = other ∧ node ∈ site.fields)
        (List.forall₂_same.mpr fun node hNode => ⟨rfl, hNode⟩) ?_
      rintro node _ ⟨rfl, hNode⟩
      show List.Forall₂ _ (site.context.collectionsFrom node)
        ((site.context.reference? site.path node).toList ++
          ((site.child? node).map fun child => child.walk.emission.references).getD [])
      cases hSite.fieldCase hNode with
      | plain storage child =>
          rw [collectionsFrom_of_plain storage, reference?_of_plain storage, child]
          exact .nil
      | external storage fields child =>
          obtain ⟨reference, hReference⟩ := exists_reference? storage
          rw [collectionsFrom_of_external storage fields, hReference, child]
          exact .cons ⟨site.path, hReference⟩ .nil
      | embedding storage fields child mem made context nodes =>
          obtain ⟨reference, hReference⟩ := exists_reference? storage
          rw [collectionsFrom_of_embedding storage context nodes, hReference, made]
          exact .cons ⟨site.path, hReference⟩ (ih child mem (hSite.of_mem_children mem))

/-- The tables of the passes of a walk, as the tree of the site tells them. -/
def startTables (site : Site) : List String :=
  site.context.table :: (site.collections.filter CollectionField.embeds).map
    CollectionField.childTable

/-- The tables of a site are its own and those of the sites that its fields lead
to. -/
theorem Succeeds.startTables_eq (hSite : site.Succeeds) :
    site.startTables = site.context.table :: site.children.flatMap startTables := by
  rw [startTables, collections_eq, List.filter_flatMap, List.map_flatMap, ← flatMap_child?]
  congr 1
  refine List.flatMap_congr fun node hNode => ?_
  cases hSite.fieldCase hNode with
  | plain storage child =>
      rw [collectionsFrom_of_plain storage, child]
      rfl
  | external storage fields child =>
      rw [collectionsFrom_of_external storage fields, child]
      simp [CollectionField.embeds, fields]
  | embedding storage fields child mem made context nodes =>
      have hEmbeds : CollectionField.embeds ⟨site.context, node⟩ = true := by
        simpa [CollectionField.embeds] using fields
      rw [collectionsFrom_of_embedding storage context nodes, made,
        List.filter_cons_of_pos hEmbeds, Option.map_some, Option.getD_some, startTables, context]
      rfl

/-- A walk that succeeds opens its own table and those of the collections below
its site with nested nodes, in pre-order. -/
theorem Succeeds.opened_collections (hSite : site.Succeeds) :
    site.walk.emission.opened = site.startTables := by
  induction site using Site.induction with
  | step site ih =>
      rw [hSite.opened_walk, hSite.startTables_eq]
      congr 1
      exact List.flatMap_congr fun child hChild => ih child hChild (hSite.of_mem_children hChild)

/-- The table of a collection with nested nodes starts after the one that the
collection is in. -/
theorem Succeeds.sublist_startTables (hSite : site.Succeeds) {collection : CollectionField}
    (hCollection : collection ∈ site.collections) (hEmbeds : collection.embeds = true) :
    [collection.context.table, collection.childTable].Sublist site.startTables := by
  induction site using Site.induction with
  | step site ih =>
      have hBelow : ∀ child ∈ site.children, child.startTables.Sublist
          (site.children.flatMap startTables) := by
        intro child hChild
        rw [List.flatMap_def]
        exact List.sublist_flatten_of_mem (List.mem_map_of_mem hChild)
      have hListed := hCollection
      rw [collections_eq] at hListed
      obtain ⟨node, hNode, hFrom⟩ := List.mem_flatMap.mp hListed
      have hHere (hSame : collection = ⟨site.context, node⟩) :
          [collection.context.table, collection.childTable].Sublist site.startTables := by
        have hTable : collection.context.table = site.context.table := by rw [hSame]
        rw [hTable, startTables]
        refine List.Sublist.cons_cons _ (List.singleton_sublist.mpr ?_)
        exact List.mem_map_of_mem (List.mem_filter.mpr ⟨hCollection, hEmbeds⟩)
      cases hSite.fieldCase hNode with
      | plain storage child =>
          rw [collectionsFrom_of_plain storage] at hFrom
          contradiction
      | external storage fields child =>
          rw [collectionsFrom_of_external storage fields] at hFrom
          exact hHere (List.mem_singleton.mp hFrom)
      | embedding storage fields child mem made context nodes =>
          rw [collectionsFrom_of_embedding storage context nodes] at hFrom
          rcases List.mem_cons.mp hFrom with hSame | hDeeper
          · exact hHere hSame
          · rw [hSite.startTables_eq]
            have hChild := ih child mem (hSite.of_mem_children mem) hDeeper
            exact (hChild.trans (hBelow child mem)).cons _

/-- The collections below a site where the walk succeeds are those among the
fields of its passes. -/
theorem Succeeds.mem_collections_iff (hSite : site.Succeeds) {collection : CollectionField} :
    collection ∈ site.collections ↔
      ∃ pass ∈ site.walk.emission.passes, collection.context = pass.context ∧
        collection.node ∈ pass.site.fields ∧
        pass.context.storageOf? collection.node = some .inline := by
  induction site using Site.induction with
  | step site ih =>
      obtain ⟨own, hOwn, hPasses⟩ := hSite.passes_walk
      have hContext : own.context = site.context := congrArg Site.context hOwn
      rw [collections_eq, hPasses]
      constructor
      · intro hCollection
        obtain ⟨node, hNode, hFrom⟩ := List.mem_flatMap.mp hCollection
        have hHere (hStorage : site.context.storageOf? node = some .inline) :
            ∃ pass ∈ site.children.flatMap (fun child => child.walk.emission.passes) ++ [own],
              site.context = pass.context ∧ node ∈ pass.site.fields ∧
                pass.context.storageOf? node = some .inline :=
          ⟨own, by simp, hContext.symm, by rw [hOwn]; exact hNode, by rw [hContext]; exact hStorage⟩
        cases hSite.fieldCase hNode with
        | plain storage child =>
            rw [collectionsFrom_of_plain storage] at hFrom
            contradiction
        | external storage fields child =>
            rw [collectionsFrom_of_external storage fields] at hFrom
            rw [List.mem_singleton.mp hFrom]
            exact hHere storage
        | embedding storage fields child mem made context nodes =>
            rw [collectionsFrom_of_embedding storage context nodes] at hFrom
            rcases List.mem_cons.mp hFrom with rfl | hBelow
            · exact hHere storage
            · obtain ⟨pass, hPass, hField⟩ :=
                (ih child mem (hSite.of_mem_children mem)).mp hBelow
              exact ⟨pass, List.mem_append_left _ (List.mem_flatMap.mpr ⟨child, mem, hPass⟩),
                hField⟩
      · rintro ⟨pass, hPass, hFrom, hNode, hStorage⟩
        rcases List.mem_append.mp hPass with hNested | hLast
        · obtain ⟨child, hChild, hIn⟩ := List.mem_flatMap.mp hNested
          obtain ⟨node, hField, hMade⟩ := List.mem_filterMap.mp hChild
          have hBelow := (ih child hChild (hSite.child hField hMade)).mpr
            ⟨pass, hIn, hFrom, hNode, hStorage⟩
          refine List.mem_flatMap.mpr ⟨node, hField, ?_⟩
          cases hSite.fieldCase hField with
          | plain _ none => exact absurd (hMade.symm.trans none) (by simp)
          | external _ _ none => exact absurd (hMade.symm.trans none) (by simp)
          | embedding storage fields other _ made context nodes =>
              obtain rfl := Option.some.inj (made.symm.trans hMade)
              rw [collectionsFrom_of_embedding storage context nodes]
              exact List.mem_cons_of_mem _ hBelow
        · obtain rfl := List.mem_singleton.mp hLast
          rw [hOwn] at hNode
          rw [hContext] at hFrom hStorage
          refine List.mem_flatMap.mpr ⟨collection.node, hNode, ?_⟩
          rw [PassContext.collectionsFrom, PassContext.ownCollections, if_pos hStorage, ← hFrom]
          exact List.mem_cons_self

end Site

/-! ## Collections of a run -/

/-- The collections of a run: documents in order, each in pre-order. -/
def runCollections (environment : Environment) (documents : List SchemaDocument) :
    List CollectionField :=
  (SchemaDocument.rootSites environment [] documents).flatMap Site.collections

/-- The tables of the passes of a run, as its documents tell them: documents in
order, the table of each before those of its collections. -/
def runTables (environment : Environment) (documents : List SchemaDocument) : List String :=
  (SchemaDocument.rootSites environment [] documents).flatMap Site.startTables

section Run

variable {environment : Environment} {documents : List SchemaDocument}

/-- A run that succeeds refers to each of its collections once, in order. -/
theorem references_runCollections (hRun : (runWalk environment documents).result = .ok ()) :
    List.Forall₂ CollectionField.Refers (runCollections environment documents)
      (runWalk environment documents).emission.references := by
  have hSites := runWalk_sites hRun
  rw [hSites.references]
  refine List.rel_flatMap (R := fun site other => site = other ∧ site.Succeeds)
    (List.forall₂_same.mpr fun site hSite => ⟨rfl, hSites.succeeds site hSite⟩) ?_
  rintro site _ ⟨rfl, hSite⟩
  exact hSite.references_collections

/-- A run that succeeds opens the tables of its passes, in order. -/
theorem opened_runTables (hRun : (runWalk environment documents).result = .ok ()) :
    (runWalk environment documents).emission.opened = runTables environment documents := by
  have hSites := runWalk_sites hRun
  rw [hSites.opened]
  exact List.flatMap_congr fun site hSite => (hSites.succeeds site hSite).opened_collections

/-- In a run that succeeds the table of a collection with nested nodes starts
after the one that the collection is in. -/
theorem sublist_runTables (hRun : (runWalk environment documents).result = .ok ())
    {collection : CollectionField} (hCollection : collection ∈ runCollections environment documents)
    (hEmbeds : collection.embeds = true) :
    [collection.context.table, collection.childTable].Sublist
      (runTables environment documents) := by
  obtain ⟨site, hSite, hBelow⟩ := List.mem_flatMap.mp hCollection
  have hTables : site.startTables.Sublist (runTables environment documents) := by
    rw [runTables, List.flatMap_def]
    exact List.sublist_flatten_of_mem (List.mem_map_of_mem hSite)
  have hSucceeds := (runWalk_sites hRun).succeeds site hSite
  exact (hSucceeds.sublist_startTables hBelow hEmbeds).trans hTables

/-- The collections of a run are those among the fields of its passes. -/
theorem mem_runCollections_iff (hRun : (runWalk environment documents).result = .ok ())
    {collection : CollectionField} :
    collection ∈ runCollections environment documents ↔
      ∃ pass ∈ (runWalk environment documents).emission.passes,
        collection.context = pass.context ∧ collection.node ∈ pass.site.fields ∧
          pass.context.storageOf? collection.node = some .inline := by
  have hSites := runWalk_sites hRun
  rw [hSites.passes]
  constructor
  · intro hCollection
    obtain ⟨site, hSite, hBelow⟩ := List.mem_flatMap.mp hCollection
    obtain ⟨pass, hPass, hField⟩ := (hSites.succeeds site hSite).mem_collections_iff.mp hBelow
    exact ⟨pass, List.mem_flatMap.mpr ⟨site, hSite, hPass⟩, hField⟩
  · rintro ⟨pass, hPass, hField⟩
    obtain ⟨site, hSite, hBelow⟩ := List.mem_flatMap.mp hPass
    exact List.mem_flatMap.mpr ⟨site, hSite,
      (hSites.succeeds site hSite).mem_collections_iff.mpr ⟨pass, hBelow, hField⟩⟩

end Run

end ContentSchema
