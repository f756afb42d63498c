import ContentSchema.Proofs.Run.Documents

/-!
# Accepted documents

Which documents compile, told without the walk.  The conditions on one pass are
listed in `PassContext.Admissible`; `PassContext.Accepts` asks for them in the
pass over a document and in every pass over the nested nodes of a collection.

* `FieldAccepted`, `EntryAccepted` and `NodeAccepted` are the shares of single
  nodes in these conditions.
* `compiles` is the induction over the tree: a node compiles exactly when its
  share holds and its identifiers are free.
* `exists_compile_eq_ok_iff` is the statement about documents.

Nothing here depends on the language file, on labels or on the position of a
node: these do NOT decide whether a document compiles.
-/

namespace ContentSchema

/-- The direction that a sorting column asks for is a known one. -/
def SortEntry.HasDirection (entry : SortEntry) : Prop :=
  ∀ order, entry.order = some order → Text.lowerAscii order = "asc" ∨ Text.lowerAscii order = "desc"

namespace PassContext

/-! ## Conditions -/

/-- The nested nodes of a field make up a pass of their own. -/
def HasPass (context : PassContext) (node : FieldNode) : Prop :=
  context.storageOf? node = some .inline ∧ node.fields ≠ []

/-- The pass over the nested nodes of a collection is `child`. -/
def Opens (context : PassContext) (node : FieldNode) (child : PassContext) : Prop :=
  context.HasPass node ∧
    ∃ unique, context.fieldIdentifier node.toFieldAttributes node.identifierText = .ok unique ∧
      context.ofCollection node (node.table.getD unique) = .ok child

/-- What a pass over `nodes` asks of these nodes, nested passes apart. -/
structure Admissible (context : PassContext) (nodes : List FieldNode) : Prop where
  resolves : ∀ node ∈ nodes, context.Resolves node
  entriesResolve : ∀ node ∈ nodes, context.kindOf? node = some .palette →
    ∀ entry ∈ node.fields, context.Resolves entry
  linebreaks : ∀ node ∈ nodes, context.kindOf? node ≠ some .linebreak
  nesting : ∀ node ∈ nodes, context.kindOf? node = some .palette → ∀ entry ∈ node.fields,
    context.kindOf? entry ≠ some .palette ∧ context.kindOf? entry ≠ some .tab
  tabs : ((context.nodesOfKind .tab nodes).map FieldNode.identifierText).Nodup
  /-- Palettes without fields count as well. -/
  palettes : ((context.nodesOfKind .palette nodes).map FieldNode.identifierText).Nodup
  fields : ((context.fieldNodes nodes).map FieldNode.identifierText).Nodup
  forms : ∀ node ∈ context.fieldNodes nodes, context.kindOf? node = some .flexForm →
    FlexForm.WellFormed context node.fields
  sorting : ∀ setting, context.settings.sortField = some setting →
    ∀ entry ∈ setting.entries, entry.HasDirection
  settings : ∀ node ∈ context.fieldNodes nodes, context.HasPass node →
    ∃ settings, node.tableSettings = .ok settings

/-- A pass over `nodes` is admissible, and so are all passes nested in it. -/
inductive Accepts : PassContext → List FieldNode → Prop where
  | pass {context : PassContext} {nodes : List FieldNode} (here : context.Admissible nodes)
      (below : ∀ node ∈ context.fieldNodes nodes, ∀ child, context.Opens node child →
        Accepts child node.fields) : Accepts context nodes

/-! ## Shares of single nodes -/

/-- The share of a field. -/
structure FieldAccepted (context : PassContext) (node : FieldNode) : Prop where
  form : context.kindOf? node = some .flexForm → FlexForm.WellFormed context node.fields
  settings : context.HasPass node → ∃ settings, node.tableSettings = .ok settings
  below : ∀ child, context.Opens node child → Accepts child node.fields

/-- The share of an entry of a palette. -/
structure EntryAccepted (context : PassContext) (node : FieldNode) : Prop where
  resolves : context.Resolves node
  nesting : context.kindOf? node ≠ some .palette ∧ context.kindOf? node ≠ some .tab
  field : context.kindOf? node ≠ some .linebreak → context.FieldAccepted node

/-- The share of a node of the pass. -/
structure NodeAccepted (context : PassContext) (node : FieldNode) : Prop where
  resolves : context.Resolves node
  linebreak : context.kindOf? node ≠ some .linebreak
  entries : context.kindOf? node = some .palette →
    ∀ entry ∈ node.fields, context.EntryAccepted entry
  field : ∀ field ∈ context.ownFields node, context.FieldAccepted field

/-- A pass is accepted exactly when every node of it has its share, the
identifiers asked for are pairwise different, and the table can be sorted. -/
theorem accepts_iff {context : PassContext} {nodes : List FieldNode} :
    context.Accepts nodes ↔
      (∀ node ∈ nodes, context.NodeAccepted node) ∧ ({} : Claims).Admits (context.asked nodes) ∧
        ∀ setting, context.settings.sortField = some setting →
          ∀ entry ∈ setting.entries, entry.HasDirection := by
  rw [Claims.admits_start_iff]
  constructor
  · rintro ⟨here, below⟩
    have hField : ∀ field ∈ context.fieldNodes nodes, context.FieldAccepted field :=
      fun field hField =>
        ⟨here.forms field hField, here.settings field hField, below field hField⟩
    refine ⟨?_, ⟨here.fields, here.palettes, here.tabs⟩, here.sorting⟩
    intro node hNode
    have hOwn : ∀ field ∈ context.ownFields node, context.FieldAccepted field :=
      fun field hOwn => hField field (List.mem_flatMap.mpr ⟨node, hNode, hOwn⟩)
    -- An entry of a palette is a field of the pass unless it is a line break.
    refine ⟨here.resolves node hNode, here.linebreaks node hNode, ?_, hOwn⟩
    intro hPalette entry hEntry
    refine ⟨here.entriesResolve node hNode hPalette entry hEntry,
      here.nesting node hNode hPalette entry hEntry, ?_⟩
    intro hLinebreak
    apply hOwn
    rw [ownFields, hPalette]
    exact List.mem_filter.mpr ⟨hEntry, by simpa using hLinebreak⟩
  · rintro ⟨hNodes, ⟨hFields, hPalettes, hTabs⟩, hSorting⟩
    have hField : ∀ field ∈ context.fieldNodes nodes, context.FieldAccepted field := by
      intro field hField
      obtain ⟨node, hNode, hOwn⟩ := List.mem_flatMap.mp hField
      exact (hNodes node hNode).field field hOwn
    refine ⟨?_, fun field hMem => (hField field hMem).below⟩
    exact {
      resolves := fun node hNode => (hNodes node hNode).resolves
      entriesResolve := fun node hNode hPalette entry hEntry =>
        ((hNodes node hNode).entries hPalette entry hEntry).resolves
      linebreaks := fun node hNode => (hNodes node hNode).linebreak
      nesting := fun node hNode hPalette entry hEntry =>
        ((hNodes node hNode).entries hPalette entry hEntry).nesting
      tabs := hTabs
      palettes := hPalettes
      fields := hFields
      forms := fun field hMem => (hField field hMem).form
      sorting := hSorting
      settings := fun field hMem => (hField field hMem).settings }

end PassContext

/-! ## Steps that cannot fail -/

section Identifiers

variable {owner : String} {policy : PrefixPolicy}

theorem exists_prefixFor {parts : String × String} (hParts : splitQualifiedName owner = .ok parts)
    (policy : PrefixPolicy) : ∃ beginning, prefixFor owner policy = .ok beginning := by
  unfold prefixFor
  rw [hParts]
  exact ⟨_, rfl⟩

theorem exists_assignIdentifier {parts : String × String}
    (hParts : splitQualifiedName owner = .ok parts) (raw : String) :
    ∃ unique, assignIdentifier owner policy raw = .ok unique := by
  unfold assignIdentifier
  split
  · obtain ⟨beginning, hBeginning⟩ := exists_prefixFor hParts policy
    rw [hBeginning]
    exact ⟨_, rfl⟩
  · exact ⟨raw, rfl⟩

theorem exists_assignFieldIdentifier {parts : String × String}
    (hParts : splitQualifiedName owner = .ok parts) (node : FieldAttributes) (raw : String)
    (onRootTable : Bool) :
    ∃ unique, assignFieldIdentifier owner policy node raw onRootTable = .ok unique := by
  unfold assignFieldIdentifier
  split
  · exact ⟨raw, rfl⟩
  · exact exists_assignIdentifier hParts raw

end Identifiers

namespace PassContext

variable {context : PassContext}

theorem Named.exists_fieldIdentifier (hNamed : context.Named) (node : FieldAttributes)
    (raw : String) : ∃ unique, context.fieldIdentifier node raw = .ok unique := by
  obtain ⟨_, hParts⟩ := hNamed
  unfold fieldIdentifier
  split
  · exact ⟨raw, rfl⟩
  · exact exists_assignFieldIdentifier hParts node raw _

theorem Named.exists_paletteIdentifier (hNamed : context.Named) (node : FieldAttributes)
    (raw : String) : ∃ unique, context.paletteIdentifier node raw = .ok unique := by
  obtain ⟨_, hParts⟩ := hNamed
  exact exists_assignFieldIdentifier hParts node raw _

theorem Named.exists_contentType (hNamed : context.Named) :
    ∃ contentType, context.contentType = .ok contentType := by
  obtain ⟨_, hParts⟩ := hNamed
  unfold contentType
  rw [hParts]
  exact ⟨_, rfl⟩

/-- A nested pass exists exactly when the settings of its table can be read. -/
theorem exists_ofCollection_iff {node : FieldNode} {childTable : String} :
    (∃ child, context.ofCollection node childTable = .ok child) ↔
      ∃ settings, node.tableSettings = .ok settings := by
  unfold ofCollection
  cases node.tableSettings <;> simp

end PassContext

namespace Pass

theorem sortOrder?_isSome_iff {entry : SortEntry} :
    (sortOrder? entry.order).isSome ↔ entry.HasDirection := by
  unfold SortEntry.HasDirection sortOrder?
  cases entry.order with
  | none => simp
  | some order =>
      by_cases hAscending : Text.lowerAscii order = "asc"
      · simp [hAscending]
      · by_cases hDescending : Text.lowerAscii order = "desc"
        · simp [hDescending]
        · simp [hAscending, hDescending]

theorem exists_sortColumn_iff {context : PassContext} {names : Entries String}
    {entry : SortEntry} :
    (∃ column, sortColumn context names entry = .ok column) ↔ entry.HasDirection := by
  rw [← sortOrder?_isSome_iff]
  unfold sortColumn
  cases sortOrder? entry.order <;> simp

/-- A pass can be closed exactly when every sorting column has a direction. -/
theorem exists_close_iff {context : PassContext} {path : LanguagePath} {nodes : List FieldNode}
    {contentType : ContentType} {items : List PassItem} :
    (∃ pass, close context path nodes contentType items = .ok pass) ↔
      ∀ setting, context.settings.sortField = some setting →
        ∀ entry ∈ setting.entries, entry.HasDirection := by
  have hColumns : (∃ columns, sortColumns context (identifierMap items) = .ok columns) ↔
      ∀ setting, context.settings.sortField = some setting →
        ∀ entry ∈ setting.entries, entry.HasDirection := by
    unfold sortColumns
    cases context.settings.sortField with
    | none => simp
    | some setting =>
        simp only [exists_mapM_eq_ok_iff, exists_sortColumn_iff, Option.some.injEq, forall_eq']
  rw [← hColumns]
  simp only [close_eq_ok_iff, tableOf_eq_ok_iff]
  constructor
  · rintro ⟨_, _, ⟨columns, hOk, _⟩, _⟩
    exact ⟨columns, hOk⟩
  · rintro ⟨columns, hOk⟩
    exact ⟨_, _, ⟨columns, hOk, rfl⟩, rfl⟩

end Pass

/-! ## The walk over nodes -/

namespace PassContext

/-- A node compiles, in whatever pass and after whatever claims, exactly when
its share holds and what it asks for is free; then that is all it claims. -/
structure Compiles (node : FieldNode) : Prop where
  asNode : ∀ (context : PassContext), context.Named → ∀ path claims claims',
    (∃ items, (context.compileNode path claims node).result = .ok (claims', items)) ↔
      context.NodeAccepted node ∧ claims.Admits (context.asked [node]) ∧
        claims' = claims.add (context.asked [node])
  asEntry : ∀ (context : PassContext), context.Named → ∀ path palette claims claims',
    (∃ entry, (context.compileEntry path palette claims node).result = .ok (claims', entry)) ↔
      context.EntryAccepted node ∧ claims.Admits (context.askedInside [node]) ∧
        claims' = claims.add (context.askedInside [node])

variable {context : PassContext} {path : LanguagePath} {claims claims' : Claims}

theorem exists_compileNodes_iff {nodes : List FieldNode} (hNodes : ∀ node ∈ nodes, Compiles node)
    (hNamed : context.Named) :
    (∃ items, (context.compileNodes path claims nodes).result = .ok (claims', items)) ↔
      (∀ node ∈ nodes, context.NodeAccepted node) ∧ claims.Admits (context.asked nodes) ∧
        claims' = claims.add (context.asked nodes) := by
  induction nodes generalizing claims claims' with
  | nil => simp [compileNodes_nil_result_eq_ok_iff]
  | cons node rest ih =>
      rw [List.forall_mem_cons] at hNodes
      obtain ⟨hNode, hRest⟩ := hNodes
      -- The rest of the nodes starts from what the first one claimed.
      rw [asked_cons, Claims.admits_append, Claims.add_append, List.forall_mem_cons]
      simp only [compileNodes_cons_result_eq_ok_iff]
      constructor
      · rintro ⟨_, between, first, more, hFirst, hMore, _⟩
        obtain ⟨hAccepted, hFree, rfl⟩ :=
          (hNode.asNode context hNamed path claims between).mp ⟨first, hFirst⟩
        obtain ⟨hOthers, hLater, rfl⟩ := (ih hRest).mp ⟨more, hMore⟩
        exact ⟨⟨hAccepted, hOthers⟩, ⟨hFree, hLater⟩, rfl⟩
      · rintro ⟨⟨hAccepted, hOthers⟩, ⟨hFree, hLater⟩, rfl⟩
        obtain ⟨first, hFirst⟩ :=
          (hNode.asNode context hNamed path claims _).mpr ⟨hAccepted, hFree, rfl⟩
        obtain ⟨more, hMore⟩ := (ih hRest).mpr ⟨hOthers, hLater, rfl⟩
        exact ⟨_, _, first, more, hFirst, hMore, rfl⟩

theorem exists_compileEntries_iff {palette : String} {nodes : List FieldNode}
    (hNodes : ∀ node ∈ nodes, Compiles node) (hNamed : context.Named) :
    (∃ entries, (context.compileEntries path palette claims nodes).result =
        .ok (claims', entries)) ↔
      (∀ node ∈ nodes, context.EntryAccepted node) ∧ claims.Admits (context.askedInside nodes) ∧
        claims' = claims.add (context.askedInside nodes) := by
  induction nodes generalizing claims claims' with
  | nil => simp [compileEntries_nil_result_eq_ok_iff]
  | cons node rest ih =>
      rw [List.forall_mem_cons] at hNodes
      obtain ⟨hNode, hRest⟩ := hNodes
      rw [askedInside_cons, Claims.admits_append, Claims.add_append, List.forall_mem_cons]
      simp only [compileEntries_cons_result_eq_ok_iff]
      constructor
      · rintro ⟨_, between, entry, more, hEntry, hMore, _⟩
        obtain ⟨hAccepted, hFree, rfl⟩ :=
          (hNode.asEntry context hNamed path palette claims between).mp ⟨entry, hEntry⟩
        obtain ⟨hOthers, hLater, rfl⟩ := (ih hRest).mp ⟨more, hMore⟩
        exact ⟨⟨hAccepted, hOthers⟩, ⟨hFree, hLater⟩, rfl⟩
      · rintro ⟨⟨hAccepted, hOthers⟩, ⟨hFree, hLater⟩, rfl⟩
        obtain ⟨entry, hEntry⟩ :=
          (hNode.asEntry context hNamed path palette claims _).mpr ⟨hAccepted, hFree, rfl⟩
        obtain ⟨more, hMore⟩ := (ih hRest).mpr ⟨hOthers, hLater, rfl⟩
        exact ⟨_, _, entry, more, hEntry, hMore, rfl⟩

/-- A pass over nodes that compile succeeds exactly when it is accepted. -/
theorem compilePass_succeeds_iff {nodes : List FieldNode} (hNodes : ∀ node ∈ nodes, Compiles node)
    (hNamed : context.Named) :
    (context.compilePass path nodes (nodesWalk nodes)).result = .ok () ↔
      context.Accepts nodes := by
  rw [compilePass_result_eq_ok_iff, accepts_iff]
  -- Every pass starts with no claims, so only what its own nodes ask for matters.
  constructor
  · rintro ⟨_, items, pass, _, hItems, hPass⟩
    obtain ⟨claims, hWalk⟩ := nodesWalk_result_eq_ok_iff.mp hItems
    obtain ⟨hAccepted, hFree, _⟩ := (exists_compileNodes_iff hNodes hNamed).mp ⟨items, hWalk⟩
    exact ⟨hAccepted, hFree, Pass.exists_close_iff.mp ⟨pass, hPass⟩⟩
  · rintro ⟨hAccepted, hFree, hSorting⟩
    obtain ⟨contentType, hType⟩ := hNamed.exists_contentType
    obtain ⟨items, hWalk⟩ := (exists_compileNodes_iff hNodes hNamed).mpr ⟨hAccepted, hFree, rfl⟩
    obtain ⟨pass, hPass⟩ := Pass.exists_close_iff.mpr hSorting
    exact ⟨contentType, items, pass, hType, nodesWalk_result_eq_ok_iff.mpr ⟨_, hWalk⟩, hPass⟩

/-- A field compiles exactly when its share holds and its identifier is free. -/
theorem exists_compileField_iff {node : FieldNode} {type : TypeDescriptor}
    (hNested : ∀ child ∈ node.fields, Compiles child) (hNamed : context.Named)
    (hType : context.typeOf? node = some type) :
    (∃ field, (context.compileField path claims type node (nodesWalk node.fields)).result =
        .ok (claims', field)) ↔
      node.HasIdentifier ∧ context.FieldAccepted node ∧
        claims.Admits (.single .field node.identifierText) ∧
        claims' = claims.add (.single .field node.identifierText) := by
  have hKind := kindOf?_of_typeOf? hType
  have hStorage := storageOf?_of_typeOf? hType
  obtain ⟨unique, hUnique⟩ :=
    hNamed.exists_fieldIdentifier node.toFieldAttributes node.identifierText
  simp only [compileField_result_eq_ok_iff]
  -- The final identifier is determined, so both sides speak of the same nested pass.
  constructor
  · rintro ⟨_, hNode, hFree, rfl, other, hOther, ⟨hForm, hPass⟩, _⟩
    obtain rfl : unique = other := Except.ok.inj (hUnique.symm.trans hOther)
    refine ⟨hNode, ⟨?_, ?_, ?_⟩, hFree, rfl⟩
    · intro hFlex
      exact hForm (Option.some.inj (hKind.symm.trans hFlex))
    · rintro ⟨hInline, hFields⟩
      have hType := Option.some.inj (hStorage.symm.trans hInline)
      obtain ⟨child, hChild, _⟩ := hPass hType hFields
      exact exists_ofCollection_iff.mp ⟨child, hChild⟩
    · rintro child ⟨⟨hInline, hFields⟩, other, hOther, hOpened⟩
      have hType := Option.some.inj (hStorage.symm.trans hInline)
      obtain rfl : unique = other := Except.ok.inj (hUnique.symm.trans hOther)
      obtain ⟨child', hChild, hCompiled⟩ := hPass hType hFields
      obtain rfl : child' = child := Except.ok.inj (hChild.symm.trans hOpened)
      exact (compilePass_succeeds_iff hNested (hNamed.ofCollection hChild)).mp hCompiled
  · rintro ⟨hNode, hAccepted, hFree, rfl⟩
    refine ⟨_, hNode, hFree, rfl, unique, hUnique, ⟨?_, ?_⟩, rfl⟩
    · intro hFlex
      exact hAccepted.form (hFlex ▸ hKind)
    · intro hInline hFields
      have hHasPass : context.HasPass node := ⟨hInline ▸ hStorage, hFields⟩
      obtain ⟨child, hChild⟩ := exists_ofCollection_iff.mpr (hAccepted.settings hHasPass)
      refine ⟨child, hChild, ?_⟩
      apply (compilePass_succeeds_iff hNested (hNamed.ofCollection hChild)).mpr
      exact hAccepted.below child ⟨hHasPass, unique, hUnique, hChild⟩

/-- A node that is neither a tab, nor a palette, nor a line break asks for its
own identifier, and its share is that of a field. -/
theorem nodeAccepted_iff_of_field {node : FieldNode} {type : TypeDescriptor}
    (hType : context.typeOf? node = some type) (hPalette : type.kind ≠ .palette)
    (hTab : type.kind ≠ .tab) (hLinebreak : type.kind ≠ .linebreak) :
    context.NodeAccepted node ↔ context.Resolves node ∧ context.FieldAccepted node := by
  have hKind := kindOf?_of_typeOf? hType
  have hOwn : context.ownFields node = [node] := by
    unfold ownFields
    rw [hKind]
    cases hRole : type.kind <;> simp_all
  constructor
  · intro hAccepted
    exact ⟨hAccepted.resolves, hAccepted.field node (by simp [hOwn])⟩
  · rintro ⟨hResolves, hField⟩
    refine ⟨hResolves, by simpa [hKind] using hLinebreak, ?_, ?_⟩
    · intro hIsPalette
      exact absurd (Option.some.inj (hKind.symm.trans hIsPalette)) hPalette
    · intro field hMem
      rw [hOwn] at hMem
      rw [List.mem_singleton.mp hMem]
      exact hField

/-- The share of such a node is the same inside of a palette. -/
theorem entryAccepted_iff_of_field {node : FieldNode} {type : TypeDescriptor}
    (hType : context.typeOf? node = some type) (hPalette : type.kind ≠ .palette)
    (hTab : type.kind ≠ .tab) (hLinebreak : type.kind ≠ .linebreak) :
    context.EntryAccepted node ↔ context.Resolves node ∧ context.FieldAccepted node := by
  have hKind := kindOf?_of_typeOf? hType
  constructor
  · exact fun hAccepted => ⟨hAccepted.resolves, hAccepted.field (by simp [hKind, hLinebreak])⟩
  · rintro ⟨hResolves, hField⟩
    exact ⟨hResolves, by simp [hKind, hPalette, hTab], fun _ => hField⟩

/-- The share of a palette is that of its entries. -/
theorem nodeAccepted_iff_of_palette {node : FieldNode}
    (hKind : context.kindOf? node = some .palette) :
    context.NodeAccepted node ↔
      context.Resolves node ∧ ∀ entry ∈ node.fields, context.EntryAccepted entry := by
  constructor
  · intro hAccepted
    exact ⟨hAccepted.resolves, hAccepted.entries hKind⟩
  · rintro ⟨hResolves, hEntries⟩
    refine ⟨hResolves, by simp [hKind], fun _ => hEntries, ?_⟩
    intro field hMem
    rw [ownFields, hKind] at hMem
    obtain ⟨hEntry, hLinebreak⟩ := List.mem_filter.mp hMem
    exact (hEntries field hEntry).field (by simpa using hLinebreak)

theorem nodeAccepted_iff_of_tab {node : FieldNode} (hKind : context.kindOf? node = some .tab) :
    context.NodeAccepted node ↔ context.Resolves node := by
  constructor
  · exact fun hAccepted => hAccepted.resolves
  · intro hResolves
    exact ⟨hResolves, by simp [hKind], by simp [hKind], by simp [ownFields, hKind]⟩

/-- A palette compiles exactly when its entries do and everything is free. -/
theorem exists_compilePalette_iff {node : FieldNode}
    (hNested : ∀ child ∈ node.fields, Compiles child) (hNamed : context.Named)
    (hKind : context.kindOf? node = some .palette) :
    (∃ items, (context.compilePalette path claims node node.identifierText fun claims =>
        context.compileEntries path node.identifierText claims node.fields).result =
          .ok (claims', items)) ↔
      (∀ entry ∈ node.fields, context.EntryAccepted entry) ∧
        claims.Admits (context.asked [node]) ∧ claims' = claims.add (context.asked [node]) := by
  have hAsked : context.asked [node] =
      Claims.single .palette node.identifierText ++ context.askedInside node.fields :=
    asked_singleton_of_kind hKind
  rw [hAsked, Claims.admits_append, Claims.add_append]
  simp only [compilePalette_result_eq_ok_iff]
  by_cases hFields : node.fields = []
  · simp [hFields]
  · simp only [if_neg hFields]
    constructor
    · rintro ⟨_, hFree, unique, entries, _, hEntries, _⟩
      obtain ⟨hAccepted, hInside, rfl⟩ :=
        (exists_compileEntries_iff hNested hNamed).mp ⟨entries, hEntries⟩
      exact ⟨hAccepted, ⟨hFree, hInside⟩, rfl⟩
    · rintro ⟨hAccepted, ⟨hFree, hInside⟩, rfl⟩
      obtain ⟨unique, hUnique⟩ :=
        hNamed.exists_paletteIdentifier node.toFieldAttributes node.identifierText
      obtain ⟨entries, hEntries⟩ :=
        (exists_compileEntries_iff hNested hNamed).mpr ⟨hAccepted, hInside, rfl⟩
      exact ⟨_, hFree, unique, entries, hUnique, hEntries, rfl⟩

/-- A field compiles, in whatever form it is passed on, exactly when it has its
share and its identifier is free. -/
theorem exists_fieldStep_iff {α : Type} (wrap : CompiledField → α) {node : FieldNode}
    {type : TypeDescriptor} (hNested : ∀ child ∈ node.fields, Compiles child)
    (hNamed : context.Named) (hResolves : context.Resolves node)
    (hType : context.typeOf? node = some type) (hLinebreak : type.kind ≠ .linebreak) :
    (∃ outcome field, (context.compileField path claims type node (nodesWalk node.fields)).result =
        .ok (claims', field) ∧ outcome = wrap field) ↔
      (context.Resolves node ∧ context.FieldAccepted node) ∧
        claims.Admits (.single .field node.identifierText) ∧
        claims' = claims.add (.single .field node.identifierText) := by
  have hNode := hResolves.hasIdentifier hType hLinebreak
  have hField : (∃ field,
      (context.compileField path claims type node (nodesWalk node.fields)).result =
        .ok (claims', field)) ↔ _ := exists_compileField_iff hNested hNamed hType
  constructor
  · rintro ⟨_, field, hCompiled, _⟩
    obtain ⟨_, hAccepted, hFree, hClaims⟩ := hField.mp ⟨field, hCompiled⟩
    exact ⟨⟨hResolves, hAccepted⟩, hFree, hClaims⟩
  · rintro ⟨⟨_, hAccepted⟩, hFree, hClaims⟩
    obtain ⟨field, hCompiled⟩ := hField.mpr ⟨hNode, hAccepted, hFree, hClaims⟩
    exact ⟨_, field, hCompiled, rfl⟩

/-- Only the type that a node resolves to counts. -/
theorem resolves_and_typeOf?_iff {node : FieldNode} {type other : TypeDescriptor}
    (hResolves : context.Resolves node) (hType : context.typeOf? node = some type) :
    (context.Resolves node ∧ context.typeOf? node = some other) ↔ other = type := by
  constructor
  · rintro ⟨_, hOther⟩
    exact Option.some.inj (hOther.symm.trans hType)
  · rintro rfl
    exact ⟨hResolves, hType⟩

theorem exists_compileNode_iff_of_resolves {node : FieldNode}
    (hNested : ∀ child ∈ node.fields, Compiles child) (hNamed : context.Named)
    (hResolves : context.Resolves node) :
    (∃ items, (context.compileNode path claims node).result = .ok (claims', items)) ↔
      context.NodeAccepted node ∧ claims.Admits (context.asked [node]) ∧
        claims' = claims.add (context.asked [node]) := by
  obtain ⟨type, hType⟩ := hResolves.exists_typeOf?
  have hKind := kindOf?_of_typeOf? hType
  simp only [compileNode_result_eq_ok_iff, resolves_and_typeOf?_iff hResolves hType,
    exists_eq_left]
  -- The three roles of a field differ from the others by what `NodeAccepted` asks for.
  have hFieldRole (hPalette : type.kind ≠ .palette) (hTab : type.kind ≠ .tab)
      (hLinebreak : type.kind ≠ .linebreak) :
      (∃ items field,
        (context.compileField path claims type node (nodesWalk node.fields)).result =
          .ok (claims', field) ∧ items = [PassItem.field field]) ↔
        context.NodeAccepted node ∧ claims.Admits (context.asked [node]) ∧
          claims' = claims.add (context.asked [node]) := by
    rw [nodeAccepted_iff_of_field hType hPalette hTab hLinebreak, asked_singleton_of_kind hKind,
      askedBy_of_field hPalette hTab]
    exact exists_fieldStep_iff _ hNested hNamed hResolves hType hLinebreak
  cases hRole : type.kind with
  | linebreak =>
      rw [hRole] at hKind
      simp only [exists_false, false_iff, not_and]
      exact fun hAccepted => absurd hKind hAccepted.linebreak
  | tab =>
      rw [hRole] at hKind
      have hNode := hResolves.hasIdentifier hType (by simp [hRole])
      rw [nodeAccepted_iff_of_tab hKind, asked_singleton_of_kind hKind]
      simp only [compileTab_result_eq_ok_iff, askedBy]
      constructor
      · rintro ⟨_, _, hFree, rfl, _⟩
        exact ⟨hResolves, hFree, rfl⟩
      · rintro ⟨_, hFree, rfl⟩
        exact ⟨_, hNode, hFree, rfl, rfl⟩
  | palette =>
      rw [hRole] at hKind
      have hNode := hResolves.hasIdentifier hType (by simp [hRole])
      have hPalette : (∃ items, (context.compilePalette path claims node node.identifierText
          fun claims => context.compileEntries path node.identifierText claims node.fields).result =
            .ok (claims', items)) ↔ _ := exists_compilePalette_iff hNested hNamed hKind
      rw [nodeAccepted_iff_of_palette hKind, and_assoc, ← hPalette]
      simp [hNode, hResolves]
  | ordinary =>
      rw [hRole] at hFieldRole
      exact hFieldRole (by simp) (by simp) (by simp)
  | collection =>
      rw [hRole] at hFieldRole
      exact hFieldRole (by simp) (by simp) (by simp)
  | flexForm =>
      rw [hRole] at hFieldRole
      exact hFieldRole (by simp) (by simp) (by simp)

/-- A node compiles as a node of a pass once its nested nodes compile. -/
theorem exists_compileNode_iff {node : FieldNode}
    (hNested : ∀ child ∈ node.fields, Compiles child) (hNamed : context.Named) :
    (∃ items, (context.compileNode path claims node).result = .ok (claims', items)) ↔
      context.NodeAccepted node ∧ claims.Admits (context.asked [node]) ∧
        claims' = claims.add (context.asked [node]) := by
  by_cases hResolves : context.Resolves node
  · exact exists_compileNode_iff_of_resolves hNested hNamed hResolves
  · -- A node that does not resolve is refused, and has no share either.
    constructor
    · rintro ⟨_, hNode⟩
      obtain ⟨_, ⟨hNode, _⟩, _⟩ := compileNode_result_eq_ok_iff.mp hNode
      exact absurd hNode hResolves
    · rintro ⟨hAccepted, _⟩
      exact absurd hAccepted.resolves hResolves

theorem exists_compileEntry_iff_of_resolves {node : FieldNode} {palette : String}
    (hNested : ∀ child ∈ node.fields, Compiles child) (hNamed : context.Named)
    (hResolves : context.Resolves node) :
    (∃ entry, (context.compileEntry path palette claims node).result = .ok (claims', entry)) ↔
      context.EntryAccepted node ∧ claims.Admits (context.askedInside [node]) ∧
        claims' = claims.add (context.askedInside [node]) := by
  obtain ⟨type, hType⟩ := hResolves.exists_typeOf?
  have hKind := kindOf?_of_typeOf? hType
  simp only [compileEntry_result_eq_ok_iff, resolves_and_typeOf?_iff hResolves hType,
    exists_eq_left]
  have hFieldRole (hPalette : type.kind ≠ .palette) (hTab : type.kind ≠ .tab)
      (hLinebreak : type.kind ≠ .linebreak) :
      (∃ entry field,
        (context.compileField path claims type node (nodesWalk node.fields)).result =
          .ok (claims', field) ∧ entry = PaletteEntry.field field) ↔
        context.EntryAccepted node ∧ claims.Admits (context.askedInside [node]) ∧
          claims' = claims.add (context.askedInside [node]) := by
    rw [entryAccepted_iff_of_field hType hPalette hTab hLinebreak,
      askedInside_singleton_of_kind hKind, if_neg hLinebreak]
    exact exists_fieldStep_iff _ hNested hNamed hResolves hType hLinebreak
  cases hRole : type.kind with
  | palette =>
      rw [hRole] at hKind
      simp only [exists_false, false_iff, not_and]
      exact fun hAccepted => absurd hKind hAccepted.nesting.1
  | tab =>
      rw [hRole] at hKind
      simp only [exists_false, false_iff, not_and]
      exact fun hAccepted => absurd hKind hAccepted.nesting.2
  | linebreak =>
      rw [hRole] at hKind
      have hAccepted : context.EntryAccepted node :=
        ⟨hResolves, by simp [hKind], fun hNot => absurd hKind hNot⟩
      rw [askedInside_singleton_of_kind hKind]
      simp [hAccepted]
  | ordinary =>
      rw [hRole] at hFieldRole
      exact hFieldRole (by simp) (by simp) (by simp)
  | collection =>
      rw [hRole] at hFieldRole
      exact hFieldRole (by simp) (by simp) (by simp)
  | flexForm =>
      rw [hRole] at hFieldRole
      exact hFieldRole (by simp) (by simp) (by simp)

/-- A node compiles as an entry of a palette once its nested nodes compile. -/
theorem exists_compileEntry_iff {node : FieldNode} {palette : String}
    (hNested : ∀ child ∈ node.fields, Compiles child) (hNamed : context.Named) :
    (∃ entry, (context.compileEntry path palette claims node).result = .ok (claims', entry)) ↔
      context.EntryAccepted node ∧ claims.Admits (context.askedInside [node]) ∧
        claims' = claims.add (context.askedInside [node]) := by
  by_cases hResolves : context.Resolves node
  · exact exists_compileEntry_iff_of_resolves hNested hNamed hResolves
  · constructor
    · rintro ⟨_, hEntry⟩
      obtain ⟨_, ⟨hNode, _⟩, _⟩ := compileEntry_result_eq_ok_iff.mp hEntry
      exact absurd hNode hResolves
    · rintro ⟨hAccepted, _⟩
      exact absurd hAccepted.resolves hResolves

/-- Every node compiles on its conditions, however deeply the tree is nested. -/
theorem compiles (node : FieldNode) : Compiles node := by
  induction node using FieldNode.induction with
  | step node hNested =>
      refine ⟨?_, ?_⟩
      · intro context hNamed path claims claims'
        exact exists_compileNode_iff hNested hNamed
      · intro context hNamed path palette claims claims'
        exact exists_compileEntry_iff hNested hNamed

end PassContext

/-! ## Documents -/

/-- A single document compiles exactly when it is valid and the pass over its
nodes, the added ones and the authored ones, is accepted. -/
theorem exists_compile_eq_ok_iff (environment : Environment) (document : SchemaDocument) :
    (∃ result, compile environment [document] = .ok result) ↔
      document.validate = .ok () ∧
        ∃ context, PassContext.ofDocument environment document = .ok context ∧
          context.Accepts (context.addedNodes [] ++ document.fields) := by
  simp only [compile_eq_ok_iff, runWalk, SchemaDocument.compileAll_cons_result_eq_ok_iff,
    SchemaDocument.compile_result_eq_ok_iff]
  constructor
  · rintro ⟨_, ⟨context, ⟨hValid, hContext, hPass⟩, _⟩, _⟩
    exact ⟨hValid, context, hContext,
      (PassContext.compilePass_succeeds_iff (fun node _ => PassContext.compiles node)
        (PassContext.named_of_ofDocument hValid hContext)).mp hPass⟩
  · rintro ⟨hValid, context, hContext, hAccepts⟩
    exact ⟨_, ⟨context, ⟨hValid, hContext,
      (PassContext.compilePass_succeeds_iff (fun node _ => PassContext.compiles node)
        (PassContext.named_of_ofDocument hValid hContext)).mpr hAccepts⟩, rfl⟩, rfl⟩

end ContentSchema
