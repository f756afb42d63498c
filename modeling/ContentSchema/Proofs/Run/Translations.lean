import ContentSchema.Proofs.FlexForm.Translations
import ContentSchema.Proofs.Pass.Identifiers
import ContentSchema.Proofs.Pass.Positions
import ContentSchema.Proofs.Run.ContentTypes
import ContentSchema.Proofs.Run.FieldLabels

/-!
# Translated texts of a run

A content type shows paths of language keys: for its title and its description,
for the fields that it overrides, for their items, and in the data structures of
nested forms.  All of them lead to keys of its document, with the authored texts
as their defaults.

* `CompiledField.Translates` says it of one field and all that is inside it.
* `Pass.Translates` says it of what a pass contributes.
* `Pass.Titled` says which title and which description a pass has.
* `fullyTranslated_of_compile` says it of every pass of a run.

A collection that is compiled into the table of its document shows a title like
the document itself.  Without a label that title is the identifier of the
collection, and NOT the name that the document is displayed with.
-/

namespace ContentSchema

/-- The field shows the texts of the node, and so do its items and its nested
form.  A field without form presence has items at most. -/
structure CompiledField.Translates (field : CompiledField) (context : PassContext)
    (keys : List LanguageKey) (node : FieldNode) : Prop where
  identifier : field.identifier = node.identifierText
  label : field.fieldType.storage ≠ .passthrough →
    Translated keys field.labelPath (node.label.getD node.identifierText)
  description : field.fieldType.storage ≠ .passthrough →
    Option.Rel (Translated keys) field.descriptionPath node.description
  items : node.TranslatesItems keys field.fieldType field.config
  form : field.fieldType.kind = .flexForm → ∃ form, field.config.lookup "ds" = some form ∧
    FlexForm.Translates context keys node.fields form

/-- Only the display condition of a field is resolved, which shows no text. -/
theorem CompiledField.Translates.resolveCondition {field : CompiledField} {context : PassContext}
    {keys : List LanguageKey} {node : FieldNode} (hField : field.Translates context keys node)
    (names : Entries String) :
    (Pass.resolveCondition names field).Translates context keys node :=
  ⟨hField.identifier, hField.label, hField.description, hField.items, hField.form⟩

namespace PassContext

variable {context : PassContext} {path : LanguagePath} {node : FieldNode}
  {keys : List LanguageKey}

/-- A field shows the texts of its node, once its keys are registered. -/
theorem translates_compiledField {type : TypeDescriptor} {unique : String}
    (hType : context.typeOf? node = some type)
    (hForm : type.kind = .flexForm → FlexForm.WellFormed context node.fields)
    (hKeys : context.fieldKeys path node ⊆ keys) :
    (context.compiledField path type node unique).Translates context keys node := by
  unfold fieldKeys at hKeys
  rw [hType] at hKeys
  obtain ⟨hLabels, hMore⟩ := List.append_subset.mp hKeys
  obtain ⟨hFormKeys, hItemKeys⟩ := List.append_subset.mp hMore
  have hStructure (hKind : type.kind = .flexForm) :=
    @lookup_ds_compiledField context path node type hKind unique
  have hItems : node.TranslatesItems keys type
      (context.compiledField path type node unique).config :=
    translatesItems_of_lookup hItemKeys fun value hValue => lookup_items_compiledField hValue unique
  obtain ⟨config, hField⟩ := context.exists_compiledField_eq path type node unique
  rw [hField] at hStructure hItems ⊢
  constructor
  · rfl
  · intro hShown
    exact translated_pathFor ((FlexForm.labelKeys_subset_iff hShown).mp hLabels).1
  · intro hShown
    have hDescription := ((FlexForm.labelKeys_subset_iff hShown).mp hLabels).2
    show Option.Rel (Translated keys) (describedPath? (path.push node.identifierText) node type) _
    have hVisible : ¬type.storage = .passthrough := hShown
    rw [describedPath?, if_neg hVisible]
    exact rel_translated_map hDescription
  · exact hItems
  · intro hKind
    have hFlexForm : type.kind = .flexForm := hKind
    rw [if_pos hFlexForm] at hFormKeys
    exact ⟨_, hStructure hKind, FlexForm.translates_formValue (hForm hKind) hFormKeys⟩

end PassContext

/-! ## Passes -/

/-- What the pass contributes shows these texts for its title and its
description, and those of its fields. -/
structure Pass.Translates (pass : Pass) (keys : List LanguageKey) (title description : String) :
    Prop where
  title : ∀ path, pass.contentType.titlePath = some path → Translated keys path title
  description : ∀ path, pass.contentType.descriptionPath = some path →
    Translated keys path description
  overrideColumns : ∀ field ∈ pass.contentType.overrideColumns, ∃ node ∈ pass.site.fields,
    field.Translates pass.context keys node
  stored : ∀ name field, (name, field) ∈ pass.table.fields → ∃ node ∈ pass.site.fields,
    field.Translates pass.context keys node

namespace Pass

variable {pass : Pass} {keys : List LanguageKey}

/-- A content type shows a title and a description exactly if its pass writes the
table of the document. -/
theorem Compiled.titlePaths (hPass : pass.Compiled) :
    pass.contentType.titlePath =
        (if pass.context.isRootTable then some (pass.path.pathFor "title") else none) ∧
      pass.contentType.descriptionPath =
        if pass.context.isRootTable then some (pass.path.pathFor "description") else none := by
  obtain ⟨contentType, hType, hMade⟩ := hPass.contentType_eq
  obtain ⟨_, _, hType⟩ := bind_eq_ok_iff.mp hType
  cases hType
  rw [hMade]
  unfold shownType PassContext.titledType
  split <;> exact ⟨rfl, rfl⟩

theorem titleKeys_of_isRootTable (hRoot : pass.context.isRootTable = true) :
    pass.path.entry "title" pass.context.displayTitle ∈ pass.site.ownKeys ∧
      pass.path.entry "description" (pass.context.description.getD "") ∈ pass.site.ownKeys := by
  have hTitle : ∀ key ∈ pass.context.titleKeys pass.path, key ∈ pass.site.ownKeys :=
    fun key hKey => Site.mem_ownKeys_iff.mpr (.inl hKey)
  rw [PassContext.titleKeys, if_pos hRoot] at hTitle
  exact ⟨hTitle _ (by simp), hTitle _ (by simp)⟩

/-- A field of a pass shows its texts, once the keys of the pass are registered. -/
theorem translates_of_makes (hSite : pass.site.Succeeds) (hKeys : pass.site.ownKeys ⊆ keys)
    {node : FieldNode} (hNode : node ∈ pass.site.fields) {field : CompiledField}
    (hMakes : pass.context.Makes pass.path node field) :
    field.Translates pass.context keys node := by
  obtain ⟨type, unique, ⟨_, hType⟩, _, rfl⟩ := hMakes
  have hForm (hKind : type.kind = .flexForm) : FlexForm.WellFormed pass.context node.fields := by
    apply hSite.admissible.forms node hNode
    show pass.context.kindOf? node = _
    rw [PassContext.kindOf?_of_typeOf? hType, hKind]
  have hFieldKeys : pass.context.fieldKeys pass.path node ⊆ keys := fun key hKey =>
    hKeys (Site.mem_ownKeys_iff.mpr (.inr (.inr ⟨node, hNode, hKey⟩)))
  exact PassContext.translates_compiledField hType hForm hFieldKeys

/-- A compiled pass shows the texts of its nodes, once its keys are registered. -/
theorem Compiled.translates (hPass : pass.Compiled) (hSite : pass.site.Succeeds)
    (hKeys : pass.site.ownKeys ⊆ keys) :
    pass.Translates keys pass.context.displayTitle (pass.context.description.getD "") := by
  obtain ⟨hTitlePath, hDescriptionPath⟩ := hPass.titlePaths
  obtain ⟨chunks, hChunks, hItems⟩ := hPass.exists_chunks
  have hMakes := PassContext.forall₂_makes_fieldNodes hChunks
  rw [← hItems] at hMakes
  have hStored (name : String) (field : CompiledField)
      (hField : (name, field) ∈ pass.table.fields) : ∃ node ∈ pass.site.fields,
        field.Translates pass.context keys node := by
    obtain ⟨compiled, hCompiled, _, rfl⟩ := hPass.exists_field_of_mem_fields hField
    obtain ⟨node, hNode, hMade⟩ := exists_of_forall₂_mem_right hMakes hCompiled
    exact ⟨node, hNode, (translates_of_makes hSite hKeys hNode hMade).resolveCondition _⟩
  constructor
  · intro path hPath
    rw [hTitlePath, Option.ite_none_right_eq_some] at hPath
    obtain ⟨hRoot, hHere⟩ := hPath
    rw [← Option.some.inj hHere]
    exact translated_pathFor (hKeys (titleKeys_of_isRootTable hRoot).1)
  · intro path hPath
    rw [hDescriptionPath, Option.ite_none_right_eq_some] at hPath
    obtain ⟨hRoot, hHere⟩ := hPath
    rw [← Option.some.inj hHere]
    exact translated_pathFor (hKeys (titleKeys_of_isRootTable hRoot).2)
  · intro field hField
    rw [hPass.overrideColumns_eq] at hField
    obtain ⟨⟨name, _⟩, hListed, rfl⟩ := List.mem_map.mp (List.mem_filter.mp hField).1
    exact hStored name _ hListed
  · exact hStored

/-- Which title and which description a pass of a run has: those of its document,
or those of its collection, of which the label is the title. -/
inductive Titled (environment : Environment) (documents : List SchemaDocument) (pass : Pass) :
    String → String → Prop where
  | document {document : SchemaDocument} (hDocument : document ∈ documents)
      (hContext : PassContext.ofDocument environment document = .ok pass.context) :
      Titled environment documents pass (document.title.getD document.displayName)
        (document.description.getD "")
  | collection {outer : Pass} {node : FieldNode}
      (hOuter : outer ∈ (runWalk environment documents).emission.passes)
      (hEmbeds : outer.Embeds node pass) :
      Titled environment documents pass (node.label.getD node.identifierText)
        (node.description.getD "")

end Pass

/-! ## Runs -/

section Run

variable {environment : Environment} {documents : List SchemaDocument} {result : CompiledResult}

/-- Every pass of a run has its title and its description from its document or
from its collection. -/
theorem titled_of_mem_passes (hRun : (runWalk environment documents).result = .ok ())
    {pass : Pass} (hPass : pass ∈ (runWalk environment documents).emission.passes) :
    pass.Titled environment documents pass.context.displayTitle
      (pass.context.description.getD "") := by
  rcases own_or_embedded_of_mem_passes hRun hPass with
    ⟨before, document, after, rfl, hContext, _⟩ | ⟨outer, hOuter, node, hEmbeds⟩
  · obtain ⟨_, _, _, _, hRead⟩ := PassContext.ofDocument_eq_ok_iff.mp hContext
    have hDocument : document ∈ before ++ document :: after := by simp
    have hTitled : pass.Titled environment (before ++ document :: after)
        (document.title.getD document.displayName) (document.description.getD "") :=
      .document hDocument hContext
    rw [hRead]
    exact hTitled
  · obtain ⟨settings, hContext⟩ := Site.context_of_child? hEmbeds.child
    have hRead : pass.context = outer.context.nested node settings := hContext
    have hIdentifier := (succeeds_of_mem_passes hRun hOuter).hasIdentifier hEmbeds.field
    obtain ⟨identifier, hAuthored⟩ := Option.isSome_iff_exists.mp hIdentifier
    have hSome : node.identifier = some identifier := (Option.filter_eq_some_iff.mp hAuthored).1
    -- A collection has an identifier, so its title never falls back further.
    have hTitle : pass.context.displayTitle = node.label.getD node.identifierText := by
      rw [hRead, PassContext.displayTitle, FieldNode.identifierText, hSome]
      show (node.label <|> node.identifier).getD _ = _
      rw [hSome]
      cases node.label <;> rfl
    rw [hTitle, hRead]
    exact .collection hOuter hEmbeds

/-- The content types of the result come from the passes of its run, and each
pass shows texts of its own document only. -/
structure CompiledResult.FullyTranslated (result : CompiledResult) (environment : Environment)
    (documents : List SchemaDocument) : Prop where
  contributed : ∀ table contentType, contentType ∈ result.contentTypesOf table ↔
    ∃ pass ∈ (runWalk environment documents).emission.passes,
      pass.context.table = table ∧ pass.contentType = contentType
  document : ∀ pass ∈ (runWalk environment documents).emission.passes,
    pass.context.document ∈ documents
  translates : ∀ pass ∈ (runWalk environment documents).emission.passes,
    ∃ title description, pass.Titled environment documents title description ∧
      pass.Translates (result.languageKeys.get pass.context.document.name) title description

/-- Whatever a content type of a result shows is the path of a key of its
document, with the authored text or its fallback as the default. -/
theorem fullyTranslated_of_compile (hResult : compile environment documents = .ok result) :
    result.FullyTranslated environment documents := by
  obtain ⟨hRun, _⟩ := compile_eq_ok_iff.mp hResult
  refine ⟨?_, fun pass hPass => (tableName_of_mem_passes hRun hPass).1, ?_⟩
  · intro table contentType
    rw [contentTypesOf_of_compile hResult, Emission.passesOn, List.mem_map]
    simp [and_assoc]
  · intro pass hPass
    have hKeys : pass.site.ownKeys ⊆ result.languageKeys.get pass.context.document.name :=
      fun key hKey => (mem_languageKeys_iff hResult).mpr ⟨pass, hPass, rfl, hKey⟩
    exact ⟨_, _, titled_of_mem_passes hRun hPass,
      (compiled_of_mem_passes hPass).translates (succeeds_of_mem_passes hRun hPass) hKeys⟩

end Run

/-- A document with a collection in its own table, a field with items, and a nested
form with texts at every level. -/
def leaflet : SchemaDocument where
  name := "acme/leaflet"
  title := some "Leaflet"
  fields :=
    [ { FieldNode.ofType "layout" "Select" with
        label := some "Layout"
        items := [{ label := some "Wide", value := some (.string "wide") }, {}] },
      { FieldNode.ofType "options" "FlexForm" with
        fields :=
          [ { FieldNode.ofType "general" "Sheet" with
              description := some "Basics"
              linkTitle := some "More"
              fields :=
                [ .ofType "hidden" "Pass",
                  { FieldNode.ofType "links" "Section" with
                    container :=
                      [ { FieldNode.ofType "link" "Container" with
                          fields :=
                            [ { FieldNode.ofType "target" "Select" with
                                description := some "Where to"
                                items := [{ label := some "Top" }] } ] } ] } ] } ] },
      { FieldNode.ofType "items" "Collection" with
        table := some "tt_content"
        fields := [.ofType "text" "Text"] } ]

/-- A catalog for the document, and no existing column. -/
def leafletEnvironment : Environment where
  catalog :=
    ⟨[ { name := "Collection", kind := .collection, storage := .inline },
       { name := "FlexForm", kind := .flexForm, storage := .flex },
       { name := "Pass", storage := .passthrough },
       { name := "Select", storage := .select, items := .byValue },
       { name := "Text", storage := .input } ]⟩
  baseSchema := .empty

/-- The keys of that document with their texts. -/
def leafletTexts : List (String × String) :=
  [ ("title", "Leaflet"), ("description", ""), ("layout.label", "Layout"),
    ("layout.items.wide.label", "Wide"), ("options.label", "options"),
    ("options.sheets.general.label", "general"),
    ("options.sheets.general.description", "Basics"),
    ("options.sheets.general.linkTitle", "More"), ("options.sections.links.title", "links"),
    ("options.sections.links.container.link.title", "link"),
    ("options.sections.links.container.link.target.label", "target"),
    ("options.sections.links.container.link.target.description", "Where to"),
    ("options.sections.links.container.link.target.items.0.label", "Top"),
    ("items.label", "items"), ("items.title", "items"), ("items.description", ""),
    ("items.text.label", "text") ]

/-- The rule at that document. -/
theorem fullyTranslated_of_compile_leaflet :
    ∃ result, compile leafletEnvironment [leaflet] = .ok result ∧
      ((result.languageKeys.get "acme/leaflet").map fun key => (key.key, key.default)) =
        leafletTexts ∧
      result.FullyTranslated leafletEnvironment [leaflet] := by
  have hTexts : ((compile leafletEnvironment [leaflet]).toOption.map fun result =>
      (result.languageKeys.get "acme/leaflet").map fun key => (key.key, key.default)) =
        some leafletTexts := by
    decide +kernel
  obtain ⟨result, hResult, hKeys⟩ := exists_eq_ok_of_map_eq_some hTexts
  exact ⟨result, hResult, hKeys, fullyTranslated_of_compile hResult⟩

/-- A title that is shown need not fall back to the display name of the document:
the collection of this one has no label, and its title leads to its identifier. -/
theorem not_translated_displayName_listing :
    ∃ result contentType path, compile galleryEnvironment [listing] = .ok result ∧
      contentType ∈ result.contentTypesOf "tt_content" ∧ contentType.titlePath = some path ∧
      listing.title = none ∧ (∀ node ∈ listing.fields, node.label = none) ∧
      ¬Translated (result.languageKeys.get listing.name) path listing.displayName := by
  let path := listing.rootPath.base ++ ":items.title"
  have hTitle : ((compile galleryEnvironment [listing]).toOption.map fun result =>
      ((result.contentTypesOf "tt_content").any fun contentType =>
          contentType.titlePath = some path,
        (result.languageKeys.get listing.name).all fun key =>
          key.path ≠ path || key.default ≠ listing.displayName)) = some (true, true) := by
    decide +kernel
  obtain ⟨result, hResult, hBoth⟩ := exists_eq_ok_of_map_eq_some hTitle
  obtain ⟨hShown, hKeys⟩ := Prod.mk.inj hBoth
  obtain ⟨contentType, hListed, hPath⟩ := List.any_eq_true.mp hShown
  refine ⟨result, contentType, path, hResult, hListed, of_decide_eq_true hPath, rfl, by decide, ?_⟩
  rintro ⟨key, hKey, hSame, hDefault⟩
  have hOther := List.all_eq_true.mp hKeys key hKey
  simp [hSame, hDefault] at hOther

end ContentSchema
