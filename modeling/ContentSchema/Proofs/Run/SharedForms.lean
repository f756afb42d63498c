import ContentSchema.Proofs.Pass.Identifiers
import ContentSchema.Proofs.Pass.Positions
import ContentSchema.Proofs.Run.FormLayouts
import ContentSchema.Proofs.Run.OverrideColumns
import ContentSchema.Proofs.Run.ParentReferences
import Mathlib.Data.List.Flatten

/-!
# Nested forms in a shared column

Several documents may bind the same existing column and give it a nested form each.
The merged configuration of the column keeps these forms apart: every document has
its data structure under its own discriminator value, as its content type has it.

* `Pass.Binds` says that a pass lists a column because its document binds it.
* `Pass.Binds.exists_stored` is what such a pass contributes.
* `sublist_documents` says that contributions come in the order of the documents.
* `sharedForm_of_compile` is the statement about a run.

A field that comes to the name of the column through a prefix does NOT bind it, and
replaces a binding in front of it before anything is merged.
-/

namespace ContentSchema

/-! ## Bindings -/

/-- The fields of the document, also those in palettes, are configured with no key
twice. -/
def SchemaDocument.DistinctConfigs (document : SchemaDocument) : Prop :=
  ∀ top ∈ document.fields, ∀ node ∈ top :: top.fields, Entries.Distinct node.config

/-- What the pass lists under the column is an existing column that its document
binds and that is not the discriminator of the document. -/
structure Pass.Binds (pass : Pass) (environment : Environment) (column : String) : Prop where
  /-- The pass is that over the document, not that over a collection in it. -/
  own : PassContext.ofDocument environment pass.context.document = .ok pass.context
  existing : ∀ field, pass.table.fields.lookup column = some field →
    field.useExistingField = true
  discriminator : ∃ typeField,
    pass.context.document.typeFieldName = some typeField ∧ typeField ≠ column

/-- What the content type of the pass has in the column: the data structure `entry`,
under the discriminator value of its document, and no other. -/
structure Pass.Structures (pass : Pass) (column : String) (entry : String × Value) : Prop where
  key : pass.context.document.resolvedTypeName = .ok entry.1
  overrides : ∃ field ∈ pass.contentType.overrideColumns, field.uniqueIdentifier = column
  structures : ∀ field ∈ pass.contentType.overrideColumns, field.uniqueIdentifier = column →
    field.config.lookup "ds" = some (.object [entry])

/-- The nodes that are added to a document are configured with no key twice. -/
theorem PassContext.distinct_config_addedNodes {context : PassContext}
    {typeFields : Entries String} :
    ∀ top ∈ context.addedNodes typeFields, ∀ node ∈ top :: top.fields,
      Entries.Distinct node.config := by
  unfold addedNodes
  split
  case h_1 =>
    split
    · simp
    · simp [discriminatorField, FieldNode.ofType, Entries.Distinct]
  case h_2 =>
    simp [pageTitlePalette, FieldNode.ofType, FieldNode.existing, FieldNode.linebreak,
      Entries.Distinct]
  case h_3 => simp

section Bindings

variable {environment : Environment} {documents : List SchemaDocument} {pass : Pass}
  {table column : String}

/-- A pass with a discriminator value is that over its document. -/
theorem exists_rootNodes_of_typed (hRun : (runWalk environment documents).result = .ok ())
    (hPass : pass ∈ (runWalk environment documents).emission.passes)
    (hTyped : pass.context.typeName.isSome = true) :
    pass.context.document ∈ documents ∧
      PassContext.ofDocument environment pass.context.document = .ok pass.context ∧
      ∃ typeFields, pass.nodes = pass.context.document.rootNodes pass.context typeFields := by
  rcases own_or_embedded_of_mem_passes hRun hPass with
    ⟨before, document, after, rfl, hReads, hNodes⟩ | hEmbedded
  · have hDocument : pass.context.document = document := by
      obtain ⟨_, _, _, _, hContext⟩ := PassContext.ofDocument_eq_ok_iff.mp hReads
      rw [hContext]
      rfl
    rw [hDocument]
    exact ⟨by simp, hReads, _, hNodes⟩
  · rw [hEmbedded.typeName_eq_none] at hTyped
    contradiction

theorem Pass.Binds.typed (hBinds : pass.Binds environment column) :
    pass.context.typeName.isSome = true := by
  obtain ⟨_, _, hTypeName⟩ := (PassContext.ofDocument_of_eq_ok hBinds.own).typeName
  rw [hTypeName]
  rfl

/-- The fields of the pass over a document are configured with no key twice. -/
theorem Pass.Binds.distinct_config (hBinds : pass.Binds environment column)
    (hRun : (runWalk environment documents).result = .ok ())
    (hPass : pass ∈ (runWalk environment documents).emission.passes)
    (hConfigs : ∀ document ∈ documents, document.DistinctConfigs) {node : FieldNode}
    (hNode : node ∈ pass.site.fields) : Entries.Distinct node.config := by
  obtain ⟨hDocument, _, _, hNodes⟩ := exists_rootNodes_of_typed hRun hPass hBinds.typed
  have hTops : ∀ top ∈ pass.site.nodes, ∀ node ∈ top :: top.fields,
      Entries.Distinct node.config := by
    intro top hTop
    rw [Pass.site, hNodes] at hTop
    rcases List.mem_append.mp hTop with hAdded | hAuthored
    · exact PassContext.distinct_config_addedNodes top hAdded
    · exact hConfigs _ hDocument top hAuthored
  rcases Site.mem_nodes_or_palette hNode with hTop | ⟨palette, hPalette, hEntry⟩
  · exact hTops node hTop node List.mem_cons_self
  · exact hTops palette hPalette node (List.mem_cons_of_mem _ hEntry)

/-- The data structure of a form has a single key, the one of its pass. -/
theorem FlexForm.exists_formValue_eq (context : PassContext) (path : LanguagePath)
    (nodes : List FieldNode) :
    ∃ form, formValue context path nodes = .object [(structureKey context, form)] :=
  ⟨_, rfl⟩

/-- A pass that binds a described column stores a field with a single data structure
there, under the discriminator value of its document. -/
theorem Pass.Binds.exists_stored (hBinds : pass.Binds environment column)
    (hRun : (runWalk environment documents).result = .ok ())
    (hPass : pass ∈ (runWalk environment documents).emission.passes)
    (hConfigs : ∀ document ∈ documents, document.DistinctConfigs) {type : TypeDescriptor}
    (hColumn : environment.baseSchema.get? pass.context.table column = some type)
    (hForm : type.kind = .flexForm) {stored : CompiledField}
    (hStored : pass.table.fields.lookup column = some stored) :
    ∃ entry : String × Value, pass.context.document.resolvedTypeName = .ok entry.1 ∧
      stored.HasEntry "ds" entry := by
  have hCompiled := compiled_of_mem_passes hPass
  have hOf := PassContext.ofDocument_of_eq_ok hBinds.own
  obtain ⟨node, hNode, hName, other, hType, rfl⟩ := hCompiled.exists_node_of_lookup hStored
  have hExisting : node.useExistingField = true := by
    have hKept := hBinds.existing _ hStored
    obtain ⟨config, hMade⟩ := pass.context.exists_compiledField_eq pass.path other node column
    rw [hMade] at hKept
    exact hKept
  -- A binding node goes by its own name, so its type is that of the column.
  have hOther : other = type := by
    rw [PassContext.fieldName_of_existing hExisting] at hName
    rw [← hName, ← hOf.environment] at hColumn
    have hBound := PassContext.typeOf?_of_existing hExisting
      ((succeeds_of_mem_passes hRun hPass).hasIdentifier hNode) hColumn
    exact Option.some.inj (hType.symm.trans hBound)
  rw [← hOther] at hForm
  obtain ⟨typeField, hTypeField, _⟩ := hBinds.discriminator
  obtain ⟨typeName, hTypeName, hOwnName⟩ := hOf.typeName
  have hKey : FlexForm.structureKey pass.context = typeName := by
    have hTyped := (FlexForm.structureKey_of_arises (.own hBinds.own)).1 typeField
      (hOf.typeField.trans hTypeField)
    exact Option.some.inj (hTyped.symm.trans hOwnName)
  obtain ⟨form, hValue⟩ := FlexForm.exists_formValue_eq pass.context
    (pass.path.push node.identifierText) node.fields
  refine ⟨(typeName, form), hTypeName, ?_, ?_⟩
  · exact PassContext.distinct_config_compiledField
      (hBinds.distinct_config hRun hPass hConfigs hNode) other column
  · show (pass.context.compiledField pass.path other node column).config.lookup "ds" = _
    rw [PassContext.lookup_ds_compiledField hForm, hValue, hKey]

/-- What is stored in the column is what the content type of the pass has there. -/
theorem Pass.Binds.structures (hBinds : pass.Binds environment column) (hPass : pass.Compiled)
    {stored : CompiledField} (hStored : pass.table.fields.lookup column = some stored)
    {entry : String × Value} (hKey : pass.context.document.resolvedTypeName = .ok entry.1)
    (hEntry : stored.HasEntry "ds" entry) : pass.Structures column entry where
  key := hKey
  overrides := by
    obtain ⟨typeField, hTypeField, hOther⟩ := hBinds.discriminator
    refine ⟨stored, (hPass.mem_overrideColumns_iff hStored).mpr ?_,
      hPass.closed.fields column stored (Entries.mem_of_lookup hStored)⟩
    rw [(PassContext.ofDocument_of_eq_ok hBinds.own).typeField, hTypeField]
    exact fun hSame => hOther (Option.some.inj hSame)
  structures := by
    intro field hField hName
    rw [hPass.overrideColumns_eq_values] at hField
    obtain ⟨⟨key, _⟩, hOverridden, rfl⟩ := List.mem_map.mp hField
    have hListed := (List.mem_filter.mp hOverridden).1
    obtain rfl : key = column := (hPass.closed.fields key _ hListed).symm.trans hName
    have hLookup := (Entries.mem_iff_lookup hPass.distinct_table.fields).mp hListed
    obtain rfl := Option.some.inj (hStored.symm.trans hLookup)
    exact hEntry.2

/-- Data structures go by the discriminator values of the documents. -/
theorem Pass.map_resolvedTypeName {passes : List Pass} {entries : Entries Value}
    (hEach : List.Forall₂ (fun pass entry => pass.Structures column entry) passes entries) :
    (passes.map fun pass => pass.context.document.resolvedTypeName) =
      (Entries.keys entries).map Except.ok := by
  rw [Entries.keys, List.map_map]
  exact map_eq_map_of_forall₂ (fun _ _ hOne => hOne.key) hEach

end Bindings

/-! ## The order of documents -/

section Order

variable {environment : Environment} {documents : List SchemaDocument}

/-- There is at most one site for each document, in the order of the documents. -/
theorem SchemaDocument.sublist_rootSites (environment : Environment)
    (typeFields : Entries String) (documents : List SchemaDocument) :
    ((rootSites environment typeFields documents).map fun site => site.context.document).Sublist
      documents := by
  induction documents generalizing typeFields with
  | nil => exact List.Sublist.refl []
  | cons document rest ih =>
      rw [rootSites, List.map_append]
      cases hSite : document.rootSite? environment typeFields with
      | none => exact (ih _).cons document
      | some site =>
          obtain ⟨context, hContext, rfl⟩ := rootSite?_eq_some_iff.mp hSite
          obtain ⟨_, _, _, _, rfl⟩ := PassContext.ofDocument_eq_ok_iff.mp hContext
          exact (ih _).cons_cons document

/-- Of the passes below the site of a document only its own has a discriminator
value. -/
theorem Site.Succeeds.sublist_typed {site : Site} (hSite : site.Succeeds) :
    ((site.walk.emission.passes.filter fun pass => pass.context.typeName.isSome).map
      fun pass => pass.context.document).Sublist [site.context.document] := by
  obtain ⟨nested, own, hPasses, hNests⟩ := hSite.exists_passes_eq
  have hNested : nested.filter (fun pass => pass.context.typeName.isSome) = [] := by
    rw [List.filter_eq_nil_iff]
    intro inner hInner
    have hNone : inner.context.typeName = none :=
      Pass.EmbeddedIn.typeName_eq_none (hNests.embedded inner hInner)
    simp [hNone]
  rw [hPasses, List.filter_append, hNested, List.nil_append, ← hNests.last]
  exact List.filter_sublist.map _

/-- Passes with a discriminator value are of different documents, in the order of the
documents. -/
theorem sublist_documents (hRun : (runWalk environment documents).result = .ok ())
    {passes : List Pass} (hPasses : passes.Sublist (runWalk environment documents).emission.passes)
    (hTyped : ∀ pass ∈ passes, pass.context.typeName.isSome = true) :
    (passes.map fun pass => pass.context.document).Sublist documents := by
  have hSites := runWalk_sites hRun
  have hAmong := hPasses.filter fun pass => pass.context.typeName.isSome
  rw [List.filter_eq_self.mpr hTyped, hSites.passes, List.filter_flatMap] at hAmong
  refine (hAmong.map _).trans ?_
  refine List.Sublist.trans ?_ (SchemaDocument.sublist_rootSites environment [] documents)
  rw [List.map_flatMap, List.map_eq_flatMap]
  exact List.Sublist.flatMap_right _ fun site hSite => (hSites.succeeds site hSite).sublist_typed

end Order

/-! ## The merged column -/

/-- Whatever each item of a list determines can be listed along with it. -/
theorem exists_forall₂ {α β : Type} {R : α → β → Prop} {items : List α}
    (hEach : ∀ a ∈ items, ∃ b, R a b) : ∃ others, List.Forall₂ R items others := by
  induction items with
  | nil => exact ⟨[], .nil⟩
  | cons item rest ih =>
      obtain ⟨other, hOther⟩ := hEach item List.mem_cons_self
      obtain ⟨others, hOthers⟩ := ih fun a hMem => hEach a (List.mem_cons_of_mem _ hMem)
      exact ⟨other :: others, .cons hOther hOthers⟩

theorem forall₂_filterMap {α β γ : Type} {f : α → Option β} {R : α → γ → Prop}
    {S : β → γ → Prop} (hFound : ∀ a c, R a c → ∃ b, f a = some b ∧ S b c) {items : List α}
    {others : List γ} (hRelated : List.Forall₂ R items others) :
    List.Forall₂ S (items.filterMap f) others := by
  induction hRelated with
  | nil => exact .nil
  | cons hHead _ ih =>
      obtain ⟨b, hHere, hNext⟩ := hFound _ _ hHead
      rw [List.filterMap_cons_some hHere]
      exact .cons hNext ih

/-- The passes of a run that list a column of a table, in the order in which they
finished. -/
def runListing (environment : Environment) (documents : List SchemaDocument)
    (table column : String) : List Pass :=
  ((runWalk environment documents).emission.passesOn table).filter fun pass =>
    (pass.table.fields.lookup column).isSome

/-- The column of the table holds a nested form and is shared by documents that can be
told apart. -/
structure SharesForm (environment : Environment) (documents : List SchemaDocument)
    (table column : String) : Prop where
  described : ∃ type, environment.baseSchema.get? table column = some type ∧
    type.kind = .flexForm
  listed : runListing environment documents table column ≠ []
  /-- Nothing but bindings by documents comes to the column. -/
  bound : ∀ pass ∈ runListing environment documents table column, pass.Binds environment column
  typeNames : ((runListing environment documents table column).map
    fun pass => pass.context.document.resolvedTypeName).Nodup

section Run

variable {environment : Environment} {documents : List SchemaDocument} {result : CompiledResult}
  {pass : Pass} {table column : String}

theorem mem_runListing_iff :
    pass ∈ runListing environment documents table column ↔
      pass ∈ (runWalk environment documents).emission.passes ∧ pass.context.table = table ∧
        ∃ stored, pass.table.fields.lookup column = some stored := by
  rw [runListing, Emission.passesOn, List.mem_filter, List.mem_filter, decide_eq_true_iff,
    Option.isSome_iff_exists, and_assoc]

/-- Only these passes have a field under the name of the column. -/
theorem fieldsUnder_passesOn :
    TableDefinition.fieldsUnder
        (((runWalk environment documents).emission.passesOn table).map Pass.table) column =
      (runListing environment documents table column).filterMap fun pass =>
        pass.table.fields.lookup column := by
  rw [TableDefinition.fieldsUnder, List.filterMap_map, runListing, List.filterMap_filter]
  congr 1
  funext pass
  show pass.table.fields.lookup column = _
  cases pass.table.fields.lookup column <;> rfl

/-- Each pass contributes one data structure, under a name of its own. -/
theorem SharesForm.exists_entries (hShared : SharesForm environment documents table column)
    (hRun : (runWalk environment documents).result = .ok ())
    (hConfigs : ∀ document ∈ documents, document.DistinctConfigs) :
    ∃ entries : Entries Value, Entries.Distinct entries ∧
      List.Forall₂ (fun pass entry => pass.Structures column entry ∧
          ∃ stored, pass.table.fields.lookup column = some stored ∧ stored.HasEntry "ds" entry)
        (runListing environment documents table column) entries := by
  obtain ⟨type, hColumn, hForm⟩ := hShared.described
  have hEach : ∀ pass ∈ runListing environment documents table column,
      ∃ entry, pass.Structures column entry ∧
        ∃ stored, pass.table.fields.lookup column = some stored ∧ stored.HasEntry "ds" entry := by
    intro pass hPass
    obtain ⟨hMem, rfl, stored, hStored⟩ := mem_runListing_iff.mp hPass
    have hBinds := hShared.bound pass hPass
    obtain ⟨entry, hKey, hEntry⟩ :=
      hBinds.exists_stored hRun hMem hConfigs hColumn hForm hStored
    exact ⟨entry, hBinds.structures (compiled_of_mem_passes hMem) hStored hKey hEntry, stored,
      hStored, hEntry⟩
  obtain ⟨entries, hEntries⟩ := exists_forall₂ hEach
  refine ⟨entries, ?_, hEntries⟩
  have hNames := hShared.typeNames
  rw [Pass.map_resolvedTypeName (hEntries.imp fun _ _ hBoth => hBoth.1)] at hNames
  exact hNames.of_map _

/-- **Shared forms.**  A column that holds a nested form and is shared by documents
keeps the data structure of each of them under its discriminator value, in the order of
the documents. -/
theorem sharedForm_of_compile (hResult : compile environment documents = .ok result)
    (hConfigs : ∀ document ∈ documents, document.DistinctConfigs)
    (hShared : SharesForm environment documents table column) :
    ((runListing environment documents table column).map
        fun pass => pass.context.document).Sublist documents ∧
      ∃ merged field entries, result.tables.lookup table = some merged ∧
        merged.fields.lookup column = some field ∧
        field.config.lookup "ds" = some (.object entries) ∧
        List.Forall₂ (fun pass entry => pass.Structures column entry)
          (runListing environment documents table column) entries := by
  obtain ⟨hRun, _⟩ := compile_eq_ok_iff.mp hResult
  constructor
  · exact sublist_documents hRun (List.filter_sublist.trans List.filter_sublist)
      fun pass hPass => (hShared.bound pass hPass).typed
  · obtain ⟨entries, hDistinct, hEntries⟩ := hShared.exists_entries hRun hConfigs
    obtain ⟨pass, hPass⟩ := List.exists_mem_of_ne_nil _ hShared.listed
    obtain ⟨hMem, rfl, stored, hStored⟩ := mem_runListing_iff.mp hPass
    obtain ⟨merged, field, hMerged, hField, hLaid⟩ :=
      exists_field_of_mem_passes hResult hMem hStored
    rw [fieldsUnder_passesOn] at hLaid
    refine ⟨merged, field, entries, hMerged, hField, ?_, hEntries.imp fun _ _ hBoth => hBoth.1⟩
    exact hLaid.lookup_entries (forall₂_filterMap (fun _ _ hBoth => hBoth.2) hEntries) hDistinct

end Run

/-- A content element with a form in the column for plugin settings. -/
def pluginDocument (name : String) (leaves : List FieldNode) : SchemaDocument where
  name := name
  fields := [{ FieldNode.existing "pi_flexform" with fields := leaves }]

/-- Two of them, with another content element in between. -/
def pluginDocuments : List SchemaDocument :=
  [ pluginDocument "acme/teaser" [.ofType "headline" "Text"],
    { name := "acme/quote", fields := [.ofType "text" "Text"] },
    pluginDocument "acme/list" [.ofType "limit" "Text"] ]

/-- A catalog for the documents, and the column. -/
def pluginEnvironment : Environment where
  catalog := ⟨[{ name := "Text", storage := .input }]⟩
  baseSchema := BaseSchema.empty.insert "tt_content" "pi_flexform"
    { name := "FlexForm", kind := .flexForm, storage := .flex }

/-- Both forms are kept, each under the name of its content type. -/
theorem sharedForm_of_compile_plugins :
    ∃ result merged field entries, compile pluginEnvironment pluginDocuments = .ok result ∧
      result.tables.lookup "tt_content" = some merged ∧
      merged.fields.lookup "pi_flexform" = some field ∧
      field.config.lookup "ds" = some (.object entries) ∧
      Entries.keys entries = ["acme_teaser", "acme_list"] := by
  obtain ⟨result, hResult⟩ := exists_eq_ok_of_isSome
    (by decide +kernel : (compile pluginEnvironment pluginDocuments).toOption.isSome = true)
  obtain ⟨hRun, _⟩ := compile_eq_ok_iff.mp hResult
  have hConfigs : ∀ document ∈ pluginDocuments, document.DistinctConfigs := by
    simp [pluginDocuments, pluginDocument, SchemaDocument.DistinctConfigs, FieldNode.existing,
      FieldNode.ofType, Entries.Distinct]
  have hTypeNames : (runListing pluginEnvironment pluginDocuments "tt_content" "pi_flexform").map
      (fun pass => pass.context.document.resolvedTypeName.toOption) =
        [some "acme_teaser", some "acme_list"] := by
    decide +kernel
  have hEach : (runListing pluginEnvironment pluginDocuments "tt_content" "pi_flexform").all
      (fun pass => pass.context.typeName.isSome &&
        pass.context.document.typeFieldName = some "CType" &&
        (pass.table.fields.lookup "pi_flexform").all CompiledField.useExistingField) = true := by
    decide +kernel
  have hShared : SharesForm pluginEnvironment pluginDocuments "tt_content" "pi_flexform" := by
    constructor
    · exact ⟨_, rfl, rfl⟩
    · intro hNil
      rw [hNil, List.map_nil] at hTypeNames
      exact List.cons_ne_nil _ _ hTypeNames.symm
    · intro pass hPass
      obtain ⟨hMem, _, _⟩ := mem_runListing_iff.mp hPass
      have hHere := List.all_eq_true.mp hEach pass hPass
      simp only [Bool.and_eq_true, decide_eq_true_iff] at hHere
      obtain ⟨⟨hTyped, hTypeField⟩, hExisting⟩ := hHere
      refine ⟨(exists_rootNodes_of_typed hRun hMem hTyped).2.1, ?_, "CType", hTypeField, by decide⟩
      intro field hField
      rw [hField] at hExisting
      exact hExisting
    · have hNodup : ["acme_teaser", "acme_list"].map some |>.Nodup := by decide
      rw [List.map_cons, List.map_singleton, ← hTypeNames] at hNodup
      refine List.Nodup.of_map Except.toOption ?_
      rw [List.map_map]
      exact hNodup
  obtain ⟨_, merged, field, entries, hMerged, hField, hStructures, hOwn⟩ :=
    sharedForm_of_compile hResult hConfigs hShared
  refine ⟨result, merged, field, entries, hResult, hMerged, hField, hStructures, ?_⟩
  have hKeys := congrArg (List.map Except.toOption) (Pass.map_resolvedTypeName hOwn)
  rw [List.map_map, List.map_map] at hKeys
  exact List.map_injective_iff.mpr (fun _ _ => Option.some.inj) (hKeys.symm.trans hTypeNames)

end ContentSchema
