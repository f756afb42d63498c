import ContentSchema.Proofs.Pass.Positions
import ContentSchema.Proofs.Run.FieldLabels

/-!
# Positions of a run

Every pass of a run is reached from a document through collections.  The labels of
all that it lists are found in the language file of the document, at the end of
the way of these collections; what stands before them or after them makes no
difference.

* `Reaches` is the way from a document to a pass.
* `Reaches.path_eq` says that it is the position of the pass.
* `Pass.Compiled.labelledAt` says that a pass is labelled at its position.
* `positioned_of_compile` puts these together for a run.

A collection lends its identifier as it was authored: the name of its table does
NOT appear on a way.
-/

namespace ContentSchema

/-! ## Labels of compiled passes -/

namespace Pass

variable {pass : Pass} {node : FieldNode}

/-- What is compiled from a field of a pass is labelled at the position of the
pass. -/
theorem labelledAt_of_makes (hSite : pass.site.Succeeds) (hNode : node ∈ pass.site.fields)
    {field : CompiledField} (hMakes : pass.context.Makes pass.path node field) :
    field.LabelledAt (FlexForm.structureKey pass.context) pass.path.base pass.path.segments
      node := by
  obtain ⟨type, unique, ⟨_, hType⟩, _, rfl⟩ := hMakes
  apply PassContext.labelledAt_compiledField
  intro hForm
  apply hSite.admissible.forms node hNode
  show pass.context.kindOf? node = _
  rw [PassContext.kindOf?_of_typeOf? hType, hForm]

/-- All that a compiled pass lists is labelled at its position. -/
theorem Compiled.labelledAt (hPass : pass.Compiled) (hSite : pass.site.Succeeds) :
    pass.LabelledAt pass.path.base pass.path.segments := by
  obtain ⟨chunks, hChunks, hItems⟩ := hPass.exists_chunks
  have hMakes := PassContext.forall₂_makes_fieldNodes hChunks
  have hPalettes := PassContext.forall₂_makesPalette hChunks
  rw [← hItems] at hMakes hPalettes
  have hStored (name : String) (field : CompiledField)
      (hField : (name, field) ∈ pass.table.fields) : ∃ node ∈ pass.site.fields,
        field.LabelledAt (FlexForm.structureKey pass.context) pass.path.base
          pass.path.segments node := by
    obtain ⟨compiled, hCompiled, _, rfl⟩ := hPass.exists_field_of_mem_fields hField
    obtain ⟨node, hNode, hMade⟩ := exists_of_forall₂_mem_right hMakes hCompiled
    exact ⟨node, hNode, (labelledAt_of_makes hSite hNode hMade).resolveCondition _⟩
  have hPalette (node : FieldNode) (palette : PaletteDefinition)
      (hMade : pass.context.MakesPalette pass.path node palette) :
      palette.LabelledAt pass.path.base pass.path.segments node := by
    obtain ⟨_, _, _, _, rfl⟩ := hMade
    exact PassContext.labelledAt_paletteOf
  constructor
  · have hMembers := (List.forall₂_and_left _ _).mpr ⟨fun node hNode => hNode, hMakes⟩
    exact hMembers.imp fun node field hBoth => labelledAt_of_makes hSite hBoth.1 hBoth.2
  · exact hStored
  · intro field hField
    rw [hPass.overrideColumns_eq] at hField
    obtain ⟨⟨name, _⟩, hListed, rfl⟩ := List.mem_map.mp (List.mem_filter.mp hField).1
    exact hStored name _ hListed
  · exact hPalettes.imp hPalette
  · intro name palette hListed
    obtain ⟨_, fields, hItem⟩ := hPass.exists_item_of_mem_palettes hListed
    obtain ⟨node, hNode, hMade⟩ := exists_of_forall₂_mem_right hPalettes
      (List.mem_filterMap.mpr ⟨_, hItem, rfl⟩)
    exact ⟨node, hNode, hPalette node palette hMade⟩

end Pass

/-! ## Ways to passes -/

/-- The document leads to the site, through collections with the identifiers on
the way. -/
inductive Reaches (environment : Environment) (documents : List SchemaDocument) :
    SchemaDocument → List String → Site → Prop where
  /-- A document leads to the pass over its own nodes. -/
  | own {before : List SchemaDocument} {document : SchemaDocument} {after : List SchemaDocument}
      {site : Site} (split : documents = before ++ document :: after)
      (root : document.rootSite? environment (before.foldl SchemaDocument.declare []) =
        some site) :
      Reaches environment documents document [] site
  /-- A pass leads to those of the collections among its fields. -/
  | nested {document : SchemaDocument} {way : List String} {outer inner : Site}
      {node : FieldNode} (above : Reaches environment documents document way outer)
      (field : node ∈ outer.fields) (child : outer.child? node = some inner) :
      Reaches environment documents document (way ++ [node.identifierText]) inner

namespace Reaches

variable {environment : Environment} {documents : List SchemaDocument}
  {document : SchemaDocument} {way : List String} {site : Site}

/-- The way to a pass is its position in the document. -/
theorem path_eq (hReaches : Reaches environment documents document way site) :
    site.path = ⟨document.languageFileReference, way⟩ := by
  induction hReaches with
  | own _ root =>
      obtain ⟨_, _, rfl⟩ := SchemaDocument.rootSite?_eq_some_iff.mp root
      rfl
  | @nested document way outer inner node _ _ child ih =>
      -- A collection adds its identifier to the position of the pass that it is in.
      obtain ⟨_, _, rfl⟩ := Option.map_eq_some_iff.mp child
      show outer.path.push node.identifierText = _
      rw [ih]
      rfl

/-- All passes that a document leads to belong to it. -/
theorem document_eq (hReaches : Reaches environment documents document way site) :
    site.context.document = document := by
  induction hReaches with
  | own _ root =>
      obtain ⟨_, hContext, rfl⟩ := SchemaDocument.rootSite?_eq_some_iff.mp root
      exact PassContext.document_of_ofDocument hContext
  | nested _ _ child ih =>
      obtain ⟨_, hContext⟩ := Site.context_of_child? child
      rw [hContext]
      exact ih

/-- There is a pass wherever a document of a run leads to. -/
theorem exists_pass (hReaches : Reaches environment documents document way site)
    (hRun : (runWalk environment documents).result = .ok ()) :
    ∃ pass ∈ (runWalk environment documents).emission.passes, pass.site = site := by
  induction hReaches with
  | own split root =>
      exact exists_pass_of_mem_rootSites hRun
        (SchemaDocument.mem_rootSites_iff.mpr ⟨_, _, _, split, root⟩)
  | @nested _ _ outer inner node _ field child ih =>
      obtain ⟨above, hAbove, rfl⟩ := ih
      obtain ⟨_, hContext, _⟩ := Option.map_eq_some_iff.mp child
      have hOpens := (PassContext.child?_eq_some_iff.mp hContext).1
      obtain ⟨pass, hPass, hEmbeds⟩ := exists_embeds_of_mem_passes hRun hAbove field hOpens
      exact ⟨pass, hPass, Option.some.inj (hEmbeds.child.symm.trans child)⟩

end Reaches

/-! ## Passes and keys of a run -/

section Run

variable {environment : Environment} {documents before after : List SchemaDocument}
  {document : SchemaDocument} {pass : Pass} {result : CompiledResult}

/-- Every pass of a run is reached from its document. -/
theorem exists_reaches (hRun : (runWalk environment documents).result = .ok ())
    (hPass : pass ∈ (runWalk environment documents).emission.passes) :
    ∃ way, Reaches environment documents pass.context.document way pass.site := by
  have hSites := runWalk_sites hRun
  rw [hSites.passes] at hPass
  obtain ⟨root, hRoot, hBelow⟩ := List.mem_flatMap.mp hPass
  obtain ⟨before, document, after, hSplit, hMade⟩ := SchemaDocument.mem_rootSites_iff.mp hRoot
  -- The way is handed on from a pass to those of its collections.
  obtain ⟨way, hReaches⟩ := (hSites.succeeds root hRoot).forall_mem_passes
    (P := fun site => ∃ way, Reaches environment documents document way site)
    (fun _ node _ hNode hChild ⟨way, hOuter⟩ =>
      ⟨way ++ [node.identifierText], hOuter.nested hNode hChild⟩)
    ⟨[], .own hSplit hMade⟩ pass hBelow
  have hDocument : pass.context.document = document := hReaches.document_eq
  exact ⟨way, by rw [hDocument]; exact hReaches⟩

/-- All keys that a document registers are its own and stand in its language file. -/
theorem standsIn_of_mem_keys (hRun : (runWalk environment documents).result = .ok ())
    (hSplit : documents = before ++ document :: after) {name : String} {key : LanguageKey}
    (hKey : (name, key) ∈
      (document.compile environment (before.foldl SchemaDocument.declare [])).emission.keys) :
    name = document.name ∧ key.StandsIn document.languageFileReference := by
  obtain ⟨site, hRoot, hSite, hEmission⟩ := exists_rootSite_of_run hRun hSplit
  have hReaches : Reaches environment documents document [] site := .own hSplit hRoot
  rw [hEmission, hSite.registers_walk.self] at hKey
  obtain ⟨_, hListed, hEntry⟩ := List.mem_map.mp hKey
  obtain ⟨rfl, rfl⟩ := Prod.mk.inj hEntry
  have hFile : site.path.base = document.languageFileReference := by
    rw [hReaches.path_eq]
  refine ⟨by rw [hReaches.document_eq], ?_⟩
  rw [← hFile]
  exact hSite.standsIn_keys _ hListed

/-- A result lists under a name what documents register under that name. -/
theorem mem_languageKeys_iff_registered (hResult : compile environment documents = .ok result)
    {name : String} {key : LanguageKey} :
    key ∈ result.languageKeys.get name ↔
      ∃ before document after, documents = before ++ document :: after ∧
        (name, key) ∈ (document.compile environment
          (before.foldl SchemaDocument.declare [])).emission.keys := by
  obtain ⟨hRun, _⟩ := compile_eq_ok_iff.mp hResult
  rw [mem_get_languageKeys_iff hResult, (runWalk_sites hRun).keys, List.mem_flatMap]
  constructor
  · rintro ⟨site, hSite, hEntry⟩
    obtain ⟨before, document, after, hSplit, hRoot⟩ := SchemaDocument.mem_rootSites_iff.mp hSite
    obtain ⟨own, hOwn, _, hEmission⟩ := exists_rootSite_of_run hRun hSplit
    obtain rfl : own = site := Option.some.inj (hOwn.symm.trans hRoot)
    exact ⟨before, document, after, hSplit, by rw [hEmission]; exact hEntry⟩
  · rintro ⟨before, document, after, hSplit, hEntry⟩
    obtain ⟨site, hRoot, _, hEmission⟩ := exists_rootSite_of_run hRun hSplit
    rw [hEmission] at hEntry
    exact ⟨site, SchemaDocument.mem_rootSites_iff.mpr ⟨before, document, after, hSplit, hRoot⟩,
      hEntry⟩

end Run

/-! ## Positions -/

/-- What a run over the documents yields mirrors where things stand in them. -/
structure CompiledResult.Positioned (result : CompiledResult) (environment : Environment)
    (documents : List SchemaDocument) : Prop where
  /-- Every document leads to a pass over its own nodes. -/
  own : ∀ before document after, documents = before ++ document :: after →
    ∃ own ∈ (runWalk environment documents).emission.passes,
      Reaches environment documents document [] own.site
  /-- Every collection with nested nodes leads further, by its identifier. -/
  nested : ∀ document way, ∀ pass ∈ (runWalk environment documents).emission.passes,
    Reaches environment documents document way pass.site → ∀ node ∈ pass.site.fields,
      pass.context.HasPass node →
        ∃ inner ∈ (runWalk environment documents).emission.passes, pass.Embeds node inner ∧
          Reaches environment documents document (way ++ [node.identifierText]) inner.site
  /-- There is a way to every pass, from the document that it belongs to. -/
  reached : ∀ pass ∈ (runWalk environment documents).emission.passes,
    ∃ way, Reaches environment documents pass.context.document way pass.site
  /-- A pass is labelled at the end of its way. -/
  labelled : ∀ document way, ∀ pass ∈ (runWalk environment documents).emission.passes,
    Reaches environment documents document way pass.site →
      pass.LabelledAt document.languageFileReference way
  /-- All keys of a document stand in its language file. -/
  registered : ∀ before document after, documents = before ++ document :: after →
    ∀ name key, (name, key) ∈ (document.compile environment
      (before.foldl SchemaDocument.declare [])).emission.keys →
        name = document.name ∧ key.StandsIn document.languageFileReference
  /-- No other keys are listed. -/
  listed : ∀ name key, key ∈ result.languageKeys.get name ↔
    ∃ before document after, documents = before ++ document :: after ∧
      (name, key) ∈ (document.compile environment
        (before.foldl SchemaDocument.declare [])).emission.keys

/-- The paths of labels mirror the position in the documents and nothing else, for
every list of documents that compiles. -/
theorem positioned_of_compile {environment : Environment} {documents : List SchemaDocument}
    {result : CompiledResult} (hResult : compile environment documents = .ok result) :
    result.Positioned environment documents := by
  obtain ⟨hRun, _⟩ := compile_eq_ok_iff.mp hResult
  constructor
  · intro before document after hSplit
    obtain ⟨site, hRoot, _⟩ := exists_rootSite_of_run hRun hSplit
    have hReaches : Reaches environment documents document [] site := .own hSplit hRoot
    obtain ⟨own, hOwn, rfl⟩ := hReaches.exists_pass hRun
    exact ⟨own, hOwn, hReaches⟩
  · intro document way pass hPass hReaches node hNode hOpens
    obtain ⟨inner, hInner, hEmbeds⟩ := exists_embeds_of_mem_passes hRun hPass hNode hOpens
    exact ⟨inner, hInner, hEmbeds, hReaches.nested hNode hEmbeds.child⟩
  · exact fun pass hPass => exists_reaches hRun hPass
  · intro document way pass hPass hReaches
    have hLabelled := (compiled_of_mem_passes hPass).labelledAt (succeeds_of_mem_passes hRun hPass)
    have hPath : pass.path = ⟨document.languageFileReference, way⟩ := hReaches.path_eq
    rw [hPath] at hLabelled
    exact hLabelled
  · exact fun before document after hSplit name key => standsIn_of_mem_keys hRun hSplit
  · exact fun name key => mem_languageKeys_iff_registered hResult

/-- A document with a collection inside a collection, and a nested form with a section
between palettes and other fields. -/
def brochure : SchemaDocument where
  name := "acme/brochure"
  fields :=
    [ { FieldNode.ofType "heading" "Palette" with fields := [.ofType "title" "Text"] },
      { FieldNode.ofType "pages" "Collection" with
        fields :=
          [ { FieldNode.ofType "columns" "Collection" with fields := [.ofType "text" "Text"] },
            { FieldNode.ofType "options" "FlexForm" with
              fields :=
                [ { FieldNode.ofType "general" "Sheet" with
                    fields :=
                      [ .ofType "color" "Text",
                        { FieldNode.ofType "links" "Section" with
                          container :=
                            [ { FieldNode.ofType "link" "Container" with
                                fields := [.ofType "target" "Text"] } ] } ] } ] },
            .ofType "footer" "Text" ] },
      .ofType "imprint" "Text" ]

/-- A catalog for the document, and no existing column. -/
def brochureEnvironment : Environment where
  catalog :=
    ⟨[ { name := "Collection", kind := .collection, storage := .inline },
       { name := "FlexForm", kind := .flexForm, storage := .flex },
       .structural "Palette" .palette, { name := "Text", storage := .input } ]⟩
  baseSchema := .empty

/-- The rules at that document, the way to each of its passes, and the fields there. -/
theorem positioned_of_compile_brochure :
    ∃ result, compile brochureEnvironment [brochure] = .ok result ∧
      result.Positioned brochureEnvironment [brochure] ∧
      ((runWalk brochureEnvironment [brochure]).emission.passes.map fun pass =>
        (pass.path.segments, pass.site.fields.map FieldNode.identifierText)) =
          [ (["pages", "columns"], ["text"]),
            (["pages"], ["columns", "options", "footer"]),
            ([], ["title", "pages", "imprint"]) ] := by
  obtain ⟨result, hResult⟩ := exists_eq_ok_of_isSome
    (by decide +kernel : (compile brochureEnvironment [brochure]).toOption.isSome = true)
  exact ⟨result, hResult, positioned_of_compile hResult, by decide +kernel⟩

end ContentSchema
