import ContentSchema.Proofs.Run.Display

/-!
# Display order

A pass fills three lists: the entries that its content type shows, the entries of
its palettes and the fields of its table.  Each is filled at a time of its own, and
yet all three follow the order of the nodes.

* `PassContext.shownEntries` and `PassContext.shownInPalette` say how a node is
  shown.
* `Pass.ShowsInOrder` says how the three lists of a pass belong together.
* `showsInOrder_of_compile` states it of every pass of a successful run.

It is NOT claimed of a pass where two fields or two palettes share a final
identifier: there an entry is shown twice and listed once.
-/

namespace ContentSchema

namespace PassContext

/-- How a node of a pass is shown by the content type.  An empty palette is not. -/
def shownEntries (context : PassContext) (node : FieldNode) : List ShowItem :=
  match context.kindOf? node with
  | some .tab => [.tab node.identifierText]
  | some .palette =>
      if node.fields.isEmpty then [] else [.palette (context.nameOf context.PaletteApart node)]
  | _ => [.field (context.fieldName node)]

/-- How a node is shown by the palette that it stands in. -/
def shownInPalette (context : PassContext) (node : FieldNode) : PaletteItem :=
  if context.kindOf? node = some .linebreak then .linebreak
  else .field (context.fieldName node)

variable {context : PassContext} {path : LanguagePath} {node : FieldNode}

/-! ## Single nodes -/

/-- A field goes by its final identifier. -/
theorem Makes.uniqueIdentifier_eq (hNamed : context.Named) {field : CompiledField}
    (hMade : context.Makes path node field) : field.uniqueIdentifier = context.fieldName node := by
  obtain ⟨type, unique, _, hUnique, rfl⟩ := hMade
  rw [fieldIdentifier_eq hNamed] at hUnique
  rw [compiledField_uniqueIdentifier, fieldName, Except.ok.inj hUnique]

theorem MakesEntry.item_eq (hNamed : context.Named) {entry : PaletteEntry}
    (hEntry : context.MakesEntry path node entry) :
    entry.item = context.shownInPalette node := by
  cases hEntry with
  | linebreak hKind => rw [shownInPalette, if_pos hKind, PaletteEntry.item]
  | field hKind made =>
      rw [shownInPalette, if_neg hKind, PaletteEntry.item, made.uniqueIdentifier_eq hNamed]

/-- What becomes of a node is shown as the node is. -/
theorem MakesItems.map_showItem (hNamed : context.Named) {items : List PassItem}
    (hItems : context.MakesItems path node items) :
    items.map PassItem.showItem = context.shownEntries node := by
  cases hItems with
  | tab hKind =>
      rw [shownEntries, hKind]
      rfl
  | empty hKind hFields =>
      rw [shownEntries, hKind, hFields]
      rfl
  | palette hKind hFields named made =>
      rw [paletteIdentifier_eq hNamed] at named
      have hSome : node.fields.isEmpty = false := by simpa using hFields
      rw [shownEntries, hKind, Except.ok.inj named, hSome]
      rfl
  | field hPalette hTab made =>
      have hShown : context.shownEntries node = [.field (context.fieldName node)] := by
        unfold shownEntries
        split
        · contradiction
        · contradiction
        · rfl
      rw [hShown, ← made.uniqueIdentifier_eq hNamed]
      rfl

end PassContext

namespace Pass

variable {pass : Pass}

/-! ## Whole passes -/

/-- The content type shows the nodes of the pass one after another. -/
theorem Compiled.showItems_eq_flatMap (hPass : pass.Compiled) :
    pass.contentType.showItems = pass.nodes.flatMap pass.context.shownEntries := by
  obtain ⟨chunks, hChunks, hItems⟩ := hPass.exists_chunks
  have hShown : pass.nodes.map pass.context.shownEntries =
      chunks.map (List.map PassItem.showItem) := by
    apply map_eq_map_of_forall₂ _ hChunks
    intro node chunk hNode
    exact (hNode.map_showItem hPass.named).symm
  rw [hPass.showItems_eq, hItems, List.map_flatten, ← hShown, List.flatMap_def]

/-- The palettes of a pass are apart if their nodes have final identifiers of their
own. -/
theorem Compiled.palettesApart_iff (hPass : pass.Compiled) :
    pass.PalettesApart ↔ ((pass.context.paletteNodes pass.nodes).map
      (pass.context.nameOf pass.context.PaletteApart)).Nodup := by
  rw [PalettesApart, hPass.map_palette_identifier]

/-- A palette that is not empty is listed, its entries in the order of its nodes. -/
theorem Compiled.exists_palette (hPass : pass.Compiled) (hApart : pass.PalettesApart)
    {node : FieldNode} (hNode : node ∈ pass.context.paletteNodes pass.nodes) :
    ∃ palette, pass.table.palettes.lookup (pass.context.nameOf pass.context.PaletteApart node) =
        some palette ∧
      palette.items = node.fields.map pass.context.shownInPalette := by
  obtain ⟨chunks, hChunks, hItems⟩ := hPass.exists_chunks
  have hPalettes := PassContext.forall₂_makesPalette hChunks
  rw [← hItems] at hPalettes
  obtain ⟨_, hMem, unique, entries, hUnique, hEntries, rfl⟩ :=
    exists_of_forall₂_mem_right hPalettes.flip hNode
  obtain ⟨item, hItem, hMade⟩ := List.mem_filterMap.mp hMem
  cases item with
  | tab identifier => contradiction
  | field compiled => contradiction
  | palette definition fields =>
      cases hMade
      rw [PassContext.paletteIdentifier_eq hPass.named] at hUnique
      rw [Except.ok.inj hUnique]
      refine ⟨_, hPass.lookup_palettes hApart hItem, ?_⟩
      symm
      apply map_eq_map_of_forall₂ _ hEntries
      intro entry made hEntry
      exact (hEntry.item_eq hPass.named).symm

/-- With each palette taken as the table lists it, the content type shows the columns
of the pass in order. -/
theorem Compiled.shownColumns_eq (hPass : pass.Compiled) (hApart : pass.PalettesApart) :
    pass.table.shownColumns pass.contentType = pass.columns := by
  rw [TableDefinition.shownColumns, hPass.showItems_eq, List.flatMap_map, columns, compiledFields,
    List.map_flatMap]
  apply List.flatMap_congr
  intro item hItem
  cases item with
  | tab identifier => rfl
  | palette definition fields =>
      show ((pass.table.palettes.lookup definition.identifier).map
        PaletteDefinition.fieldIdentifiers).getD [] = _
      rw [hPass.lookup_palettes hApart hItem]
      exact hPass.fieldIdentifiers_eq hItem
  | field compiled => rfl

/-- The pass shows its nodes in the order in which it visits them. -/
structure ShowsInOrder (pass : Pass) : Prop where
  /-- With palettes taken apart, the content type shows the fields that are listed. -/
  columns : pass.table.shownColumns pass.contentType = Entries.keys pass.table.fields
  /-- Fields are listed in the order of the walk, those of a palette in its place. -/
  fields : Entries.keys pass.table.fields = pass.site.fields.map pass.context.fieldName
  /-- Palettes are listed in the order of the walk, empty ones left out. -/
  palettes : Entries.keys pass.table.palettes =
    (pass.context.paletteNodes pass.nodes).map (pass.context.nameOf pass.context.PaletteApart)
  /-- Fields, tabs and palettes are shown where their nodes stand. -/
  showItems : pass.contentType.showItems = pass.nodes.flatMap pass.context.shownEntries
  /-- Fields and line breaks of a palette are shown where their nodes stand. -/
  paletteItems : ∀ node ∈ pass.context.paletteNodes pass.nodes, ∃ palette,
    pass.table.palettes.lookup (pass.context.nameOf pass.context.PaletteApart node) =
        some palette ∧
      palette.items = node.fields.map pass.context.shownInPalette

theorem Compiled.showsInOrder (hPass : pass.Compiled)
    (hFields : (pass.site.fields.map pass.context.fieldName).Nodup)
    (hPalettes : ((pass.context.paletteNodes pass.nodes).map
      (pass.context.nameOf pass.context.PaletteApart)).Nodup) : pass.ShowsInOrder := by
  have hApart : pass.PalettesApart := hPass.palettesApart_iff.mpr hPalettes
  have hColumns : pass.columns = pass.site.fields.map pass.context.fieldName :=
    hPass.map_uniqueIdentifier
  have hListed : Entries.keys pass.table.fields = pass.columns := by
    rw [hPass.keys_fields]
    apply Entries.eraseDups_eq_self
    rw [← hColumns] at hFields
    exact hFields
  refine ⟨?_, hListed.trans hColumns, ?_, hPass.showItems_eq_flatMap,
    fun _ hNode => hPass.exists_palette hApart hNode⟩
  · rw [hPass.shownColumns_eq hApart, hListed]
  · rw [hPass.keys_palettes, Entries.eraseDups_eq_self hApart, hPass.map_palette_identifier]

end Pass

section Run

variable {environment : Environment} {documents : List SchemaDocument} {result : CompiledResult}

/-- Every pass of a successful run whose fields, and whose palettes, have final
identifiers of their own shows its nodes in the order of the walk.  The walk of a
document begins with the added nodes, and that of a collection has its nested
ones. -/
theorem showsInOrder_of_compile (hResult : compile environment documents = .ok result) :
    ∀ pass ∈ (runWalk environment documents).emission.passes,
      ((∃ before document after, documents = before ++ document :: after ∧
          pass.nodes = pass.context.addedNodes (before.foldl SchemaDocument.declare []) ++
            document.fields) ∨
        ∃ outer ∈ (runWalk environment documents).emission.passes, ∃ node,
          outer.Embeds node pass ∧ pass.nodes = node.fields) ∧
      ((pass.site.fields.map pass.context.fieldName).Nodup →
        ((pass.context.paletteNodes pass.nodes).map
          (pass.context.nameOf pass.context.PaletteApart)).Nodup → pass.ShowsInOrder) := by
  intro pass hPass
  obtain ⟨hRun, _⟩ := compile_eq_ok_iff.mp hResult
  refine ⟨?_, fun hFields hPalettes =>
    (compiled_of_mem_passes hPass).showsInOrder hFields hPalettes⟩
  rcases own_or_embedded_of_mem_passes hRun hPass with
    ⟨before, document, after, hSplit, _, hNodes⟩ | ⟨outer, hOuter, node, hEmbeds⟩
  · exact .inl ⟨before, document, after, hSplit, hNodes⟩
  · exact .inr ⟨outer, hOuter, node, hEmbeds, Site.nodes_of_child? hEmbeds.child⟩

end Run

/-- A document with fields in and between palettes, tabs and a collection. -/
def article : SchemaDocument where
  name := "acme/article"
  fields :=
    [ .ofType "general" "Tab",
      { FieldNode.ofType "heading" "Palette" with
        fields := [.ofType "title" "Text", .linebreak, .ofType "subtitle" "Text"] },
      .ofType "spare" "Palette",
      { FieldNode.ofType "authors" "Collection" with fields := [.ofType "name" "Text"] },
      .ofType "more" "Tab",
      .ofType "text" "Text" ]

/-- A catalog for the document, and no existing column. -/
def articleEnvironment : Environment where
  catalog :=
    ⟨[ { name := "Collection", kind := .collection, storage := .inline },
       .structural "Linebreak" .linebreak, .structural "Palette" .palette,
       .structural "Tab" .tab, { name := "Text", storage := .input } ]⟩
  baseSchema := .empty

/-- The pass over the document shows its nodes in order, the empty palette left out. -/
theorem showsInOrder_of_compile_article :
    ∃ result, compile articleEnvironment [article] = .ok result ∧
      ∃ pass ∈ (runWalk articleEnvironment [article]).emission.passes, pass.ShowsInOrder ∧
        pass.contentType.showItems =
          [.tab "general", .palette "acme_article_heading", .field "acme_article_authors",
            .tab "more", .field "acme_article_text"] := by
  let shown : List ShowItem :=
    [.tab "general", .palette "acme_article_heading", .field "acme_article_authors",
      .tab "more", .field "acme_article_text"]
  have hPasses : (compile articleEnvironment [article]).toOption.map (fun _ =>
      (runWalk articleEnvironment [article]).emission.passes.any fun pass =>
        (pass.site.fields.map pass.context.fieldName).Nodup ∧
          ((pass.context.paletteNodes pass.nodes).map
            (pass.context.nameOf pass.context.PaletteApart)).Nodup ∧
          pass.contentType.showItems = shown) = some true := by
    decide +kernel
  obtain ⟨result, hResult, hAny⟩ := exists_eq_ok_of_map_eq_some hPasses
  obtain ⟨pass, hPass, hFound⟩ := List.any_eq_true.mp hAny
  obtain ⟨hFields, hPalettes, hShown⟩ := of_decide_eq_true hFound
  exact ⟨result, hResult, pass, hPass,
    (showsInOrder_of_compile hResult pass hPass).2 hFields hPalettes, hShown⟩

end ContentSchema
