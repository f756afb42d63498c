import ContentSchema.Proofs.Language.Additions
import ContentSchema.Proofs.Pass.Ways
import ContentSchema.Proofs.Run.Translations

/-!
# Source texts of a run

Translation files are filled with the texts that a run registers.  Of several
entries with one key the first is kept, so a text is lost where another one is
registered before it under its key.

* `LanguageKeys.sourceText?` is the text that is kept for a key.
* `LanguageKeys.Lossless` says that every entry of a document keeps its own.
* `FieldNode.TellsItems` compares the paths of the labels of items.
* `sourceTexts_of_compile` says when a run loses no text.

Nothing in a run protects keys from each other.  Identifiers may have dots or be
the words that keys are made with, items may share a value, and documents a name;
`clashes_crowdedFields` has an example of each.
-/

namespace ContentSchema

/-! ## Source texts -/

namespace LanguageKeys

/-- The text that is kept for a key of a document. -/
def sourceText? (keys : LanguageKeys) (document key : String) : Option String :=
  (keys.sourceMap.lookup document).bind fun texts => texts.lookup key

theorem sourceText?_eq (keys : LanguageKeys) (document name : String) :
    keys.sourceText? document name =
      ((keys.get document).find? fun key => key.key = name).map LanguageKey.default := by
  unfold sourceText? sourceMap get
  rw [Entries.lookup_mapValues]
  cases keys.lookup document with
  | none => rfl
  | some listed => exact lookup_sourceTexts listed name

/-- No text of the document is lost. -/
structure Lossless (keys : LanguageKeys) (document : String) : Prop where
  default_eq : ∀ first ∈ keys.get document, ∀ second ∈ keys.get document,
    first.key = second.key → first.default = second.default
  sourceText : ∀ key ∈ keys.get document, keys.sourceText? document key.key = some key.default

/-- No text is lost once equal keys have equal texts. -/
theorem lossless_of_default_eq {keys : LanguageKeys} {document : String}
    (hSame : ∀ first ∈ keys.get document, ∀ second ∈ keys.get document,
      first.key = second.key → first.default = second.default) :
    keys.Lossless document := by
  refine ⟨hSame, fun key hKey => ?_⟩
  have hSome : ((keys.get document).find? fun other => other.key = key.key).isSome :=
    List.find?_isSome.mpr ⟨key, hKey, decide_eq_true rfl⟩
  obtain ⟨kept, hKept⟩ := Option.isSome_iff_exists.mp hSome
  have hListed := List.mem_of_find?_eq_some hKept
  have hName : kept.key = key.key := by
    simpa using List.find?_some hKept
  rw [sourceText?_eq, hKept, Option.map_some, hSame kept hListed key hKey hName]

end LanguageKeys

/-! ## Labels of items -/

/-- Two labelled items of the node are compiled with one path exactly when they are
keyed alike. -/
def FieldNode.TellsItems (node : FieldNode) (type : TypeDescriptor) (values : List Value) : Prop :=
  ∀ (i j : Nat) (first second : FieldItem),
    node.items[i]? = some first → node.items[j]? = some second →
      first.label.isSome → second.label.isSome →
        ((values[i]?.bind fun value : Value => value.get? "labelPath") =
            (values[j]?.bind fun value : Value => value.get? "labelPath") ↔
          first.key type.items i = second.key type.items j)

namespace PassContext

variable {context : PassContext} {path : LanguagePath} {node : FieldNode} {type : TypeDescriptor}

/-- An item that has a label shows its path. -/
theorem get?_registeredItem {labels : ItemLabels} {index : Nat} {item : FieldItem}
    (hLabel : item.label.isSome) :
    (registeredItem path labels index item).get? "labelPath" =
      some (.string (path.pathFor ("items." ++ item.key labels index ++ ".label"))) := by
  obtain ⟨label, hSome⟩ := Option.isSome_iff_exists.mp hLabel
  unfold registeredItem
  rw [hSome]
  exact Entries.lookup_insert_self _ _ _

theorem tellsItems_registerItems {values : List Value}
    (hItems : (context.registerItems path node type).result = .ok (some (.list values))) :
    node.TellsItems type values := by
  rw [registerItems_result, registeredItems] at hItems
  split at hItems
  · simp at hItems
  · obtain rfl : (node.items.mapIdx fun index item =>
        registeredItem path type.items index item) = values := by simpa using hItems
    intro i j first second hFirst hSecond hLabel hLabel'
    rw [List.getElem?_mapIdx, List.getElem?_mapIdx, hFirst, hSecond, Option.map_some,
      Option.map_some, Option.bind_some, Option.bind_some, get?_registeredItem hLabel,
      get?_registeredItem hLabel', Option.some.injEq, Value.string.injEq]
    exact pathFor_item_eq_iff path _ _

end PassContext

/-! ## Runs -/

section Run

variable {environment : Environment} {documents before after : List SchemaDocument}
  {document : SchemaDocument} {result : CompiledResult}

/-- A document whose name no other document has is at a single root. -/
theorem rootSite?_eq_of_name (hOthers : ∀ other ∈ before ++ after, other.name ≠ document.name)
    {site : Site}
    (hSite : site ∈ SchemaDocument.rootSites environment [] (before ++ document :: after))
    (hName : site.context.document.name = document.name) :
    document.rootSite? environment (before.foldl SchemaDocument.declare []) = some site := by
  rw [SchemaDocument.rootSites_append, SchemaDocument.rootSites, List.mem_append, List.mem_append,
    Option.mem_toList] at hSite
  rcases hSite with hBefore | hHere | hAfter
  · have hListed := List.mem_append_left after (SchemaDocument.document_of_mem_rootSites hBefore)
    exact absurd hName (hOthers _ hListed)
  · exact hHere
  · have hListed := List.mem_append_right before (SchemaDocument.document_of_mem_rootSites hAfter)
    exact absurd hName (hOthers _ hListed)

/-- Every key that a result lists under the name of such a document is one of the
walk over it. -/
theorem exists_site_of_mem_languageKeys (hResult : compile environment documents = .ok result)
    {name : String} {key : LanguageKey} (hKey : key ∈ result.languageKeys.get name) :
    ∃ site ∈ SchemaDocument.rootSites environment [] documents,
      site.context.document.name = name ∧ site.Succeeds ∧ key ∈ site.keys := by
  obtain ⟨hRun, _⟩ := compile_eq_ok_iff.mp hResult
  have hSites := runWalk_sites hRun
  obtain ⟨pass, hPass, hName, hOwn⟩ := (mem_languageKeys_iff hResult).mp hKey
  rw [hSites.passes] at hPass
  obtain ⟨site, hSite, hBelow⟩ := List.mem_flatMap.mp hPass
  have hSucceeds := hSites.succeeds site hSite
  refine ⟨site, hSite, ?_, hSucceeds, hSucceeds.mem_keys_iff.mpr ⟨pass, hBelow, hOwn⟩⟩
  rw [← (within_of_mem_passes hSucceeds hBelow).document, hName]

/-- A run loses no text of a document whose name no other document has, if all
passes of the document keep their ways apart.  The labels of items are told apart
by the keys of the items in any case. -/
theorem sourceTexts_of_compile (hResult : compile environment documents = .ok result) :
    (∀ before document after, documents = before ++ document :: after →
      (∀ other ∈ before ++ after, other.name ≠ document.name) →
      (∀ pass ∈ (runWalk environment documents).emission.passes,
        pass.context.document.name = document.name → pass.site.Unambiguous) →
      result.languageKeys.Lossless document.name) ∧
    ∀ (context : PassContext) path node type values,
      (context.registerItems path node type).result = .ok (some (.list values)) →
        node.TellsItems type values := by
  refine ⟨?_, fun _ _ _ _ _ hItems => PassContext.tellsItems_registerItems hItems⟩
  rintro before document after rfl hOthers hClear
  obtain ⟨hRun, _⟩ := compile_eq_ok_iff.mp hResult
  refine LanguageKeys.lossless_of_default_eq fun first hFirst second hSecond hSame => ?_
  obtain ⟨site, hSite, hName, hSucceeds, hMine⟩ := exists_site_of_mem_languageKeys hResult hFirst
  obtain ⟨other, hOther, hName', _, hMine'⟩ := exists_site_of_mem_languageKeys hResult hSecond
  have hRoot := rootSite?_eq_of_name hOthers hSite hName
  obtain rfl := Option.some.inj (hRoot.symm.trans (rootSite?_eq_of_name hOthers hOther hName'))
  refine hSucceeds.default_eq (fun pass hPass => hClear pass ?_ ?_) hMine hMine' hSame
  · rw [(runWalk_sites hRun).passes]
    exact List.mem_flatMap.mpr ⟨site, hSite, hPass⟩
  · rw [(within_of_mem_passes hSucceeds hPass).document, hName]

end Run

/-- An item that is labelled and keyed by its value. -/
def labelledItem (value label : String) : FieldItem where
  label := some label
  value := some (.string value)

/-- A field with three labelled items, of which two have one value. -/
def sizeField : FieldNode :=
  { FieldNode.ofType "size" "Select" with
    items := [labelledItem "s" "Small", labelledItem "s" "Short", labelledItem "l" "Large"] }

/-- The type of that field. -/
def selectType : TypeDescriptor where
  name := "Select"
  storage := .select
  items := .byValue

/-- No text of the leaflet is lost, and its items are told apart as those of any
field. -/
theorem sourceTexts_of_compile_leaflet :
    ∃ result, compile leafletEnvironment [leaflet] = .ok result ∧
      result.languageKeys.Lossless leaflet.name ∧
      ∀ context path, ∃ values,
        (PassContext.registerItems context path sizeField selectType).result =
          .ok (some (.list values)) ∧ sizeField.TellsItems selectType values := by
  obtain ⟨result, hResult⟩ := exists_eq_ok_of_isSome
    (by decide +kernel : (compile leafletEnvironment [leaflet]).toOption.isSome = true)
  obtain ⟨hTexts, hItems⟩ := sourceTexts_of_compile hResult
  refine ⟨result, hResult, hTexts [] leaflet [] rfl (by simp) (by decide +kernel), ?_⟩
  intro context path
  have hMade := PassContext.registerItems_result context path sizeField selectType
  exact ⟨_, hMade, hItems context path sizeField _ _ hMade⟩

/-- Types of the standard catalog, and three that a project may register besides:
a collection with items, a form with items, and a form that is a collection. -/
def crowdedEnvironment : Environment where
  catalog :=
    ⟨[ { name := "Collection", kind := .collection, storage := .inline },
       { name := "FlexForm", kind := .flexForm, storage := .flex },
       { name := "Gallery", kind := .collection, storage := .inline, items := .byValue },
       { name := "Options", kind := .flexForm, storage := .flex, items := .byValue },
       { name := "Panels", kind := .flexForm, storage := .inline },
       { name := "Sheet", kind := .collection, storage := .inline },
       selectType, .structural "Palette" .palette, .structural "Tab" .tab,
       { name := "Text", storage := .input } ]⟩
  baseSchema := .empty

/-- Lists of documents, told by their fields, that have two texts for one key each. -/
def crowdedFields : List (List (List FieldNode)) :=
  [ [[sizeField]],
    -- Words that keys are made with are identifiers as well.
    [[{ FieldNode.ofType "label" "Tab" with label := some "General" }, .ofType "tabs" "Text"]],
    [[{ FieldNode.ofType "meta" "Palette" with
        label := some "Meta data", fields := [.ofType "author" "Text"] },
      { FieldNode.ofType "palettes" "Collection" with fields := [.ofType "meta" "Text"] }]],
    [[{ FieldNode.ofType "form" "FlexForm" with
        fields :=
          [ { FieldNode.ofType "items" "Section" with
              container := [{ FieldNode.ofType "link" "Container" with
                fields := [.ofType "target" "Text"] }] },
            { FieldNode.ofType "sections" "Select" with
              items := [labelledItem "container.link.target" "All"] } ] }]],
    [[{ FieldNode.ofType "form" "Options" with
        items := [labelledItem "items.s" "Small"]
        fields := [{ FieldNode.ofType "items" "Select" with
          items := [labelledItem "s" "Short"] }] }]],
    [[{ FieldNode.ofType "pictures" "Gallery" with
        items := [labelledItem "items.s" "Small"]
        fields := [{ FieldNode.ofType "items" "Select" with
          items := [labelledItem "s" "Short"] }] }]],
    -- Nested nodes are both a form and a pass.
    [[{ FieldNode.ofType "panels" "Panels" with
        fields :=
          [ { FieldNode.ofType "sheets" "Sheet" with fields := [.ofType "more" "Text"] },
            { FieldNode.ofType "more" "Sheet" with
              label := some "More", fields := [.ofType "text" "Text"] } ] }]],
    -- An identifier has a dot.
    [[{ FieldNode.ofType "a" "Collection" with fields := [.ofType "b" "Text"] },
      .ofType "a.b" "Text"]],
    -- Two documents have one name.
    [[.ofType "name" "Text"], [{ FieldNode.ofType "name" "Text" with label := some "Name" }]] ]

/-- The documents with these fields. -/
def crowdedDocuments (fields : List (List FieldNode)) : List SchemaDocument :=
  fields.map fun nodes => { name := "acme/card", fields := nodes }

/-- Each of these lists compiles to two texts under one key, of which one is lost,
and two items of one field have different labels and one path. -/
theorem clashes_crowdedFields :
    (∀ fields ∈ crowdedFields, ∃ result,
      compile crowdedEnvironment (crowdedDocuments fields) = .ok result ∧
      ∃ first ∈ result.languageKeys.get "acme/card",
        ∃ second ∈ result.languageKeys.get "acme/card",
          first.key = second.key ∧ first.default ≠ second.default ∧
            result.languageKeys.sourceText? "acme/card" second.key = some first.default) ∧
    ∀ context path, ∃ values,
      (PassContext.registerItems context path sizeField selectType).result =
        .ok (some (.list values)) ∧
      (values[0]?.bind fun value : Value => value.get? "labelPath") =
        (values[1]?.bind fun value : Value => value.get? "labelPath") ∧
      sizeField.items.map FieldItem.label = [some "Small", some "Short", some "Large"] := by
  constructor
  · intro fields hFields
    have hClash : ∀ fields ∈ crowdedFields,
        ((compile crowdedEnvironment (crowdedDocuments fields)).toOption.map fun result =>
          decide (∃ first ∈ result.languageKeys.get "acme/card",
            ∃ second ∈ result.languageKeys.get "acme/card",
              first.key = second.key ∧ first.default ≠ second.default ∧
                result.languageKeys.sourceText? "acme/card" second.key = some first.default)) =
          some true := by
      decide +kernel
    obtain ⟨result, hResult, hFound⟩ := exists_eq_ok_of_map_eq_some (hClash fields hFields)
    exact ⟨result, hResult, of_decide_eq_true hFound⟩
  · intro context path
    exact ⟨_, PassContext.registerItems_result context path sizeField selectType, rfl, rfl⟩

end ContentSchema
