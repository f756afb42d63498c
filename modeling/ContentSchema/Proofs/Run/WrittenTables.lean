import ContentSchema.Proofs.Pass.FreeForm
import ContentSchema.Proofs.Run.Settings

/-!
# Tables that are written

A compiled table is written as a JSON value and read again.  Documents that are read hold only
what a JSON text can hold, the compiler writes nothing else, and neither does the merge of
tables, so a table is read as it was up to conditions that are null.

* `holdsJson_of_mem_passes` carries what holds of documents down to the nodes of a pass.
* `Pass.Compiled.holdsJson_of_lookup` carries it over to the fields of the pass.
* `holdsJson_of_mem_tables` carries it over to the merged table.
* `readAgain_of_compile` is the statement about a run.

A condition that is null does NOT come back, and a text can spell one.  Documents that are read
of JSON values have none.
-/

namespace ContentSchema

variable {Admits : Value → Prop}

/-! ## Nodes of a run -/

/-- The nodes that are added to a document have no conditions. -/
theorem PassContext.holdsJson_addedNodes {context : PassContext} {typeFields : Entries String} :
    ∀ node ∈ context.addedNodes typeFields, node.HoldsJson Admits := by
  have hNone : ∀ node ∈ ([] : List FieldNode), node.HoldsJson Admits := List.forall_mem_nil _
  unfold addedNodes
  split
  case h_1 typeField typeName _ _ _ =>
    split
    · exact hNone
    · have hDefault : (Value.object [("default", .string typeName)]).IsJson :=
        Value.isJson_singleton (Value.isJson_string typeName)
      refine List.forall_mem_singleton.mpr
        (FieldNode.holdsJson_of_unconditioned ?_ rfl hDefault hNone rfl)
      exact List.forall_mem_singleton.mpr ⟨Value.heldJson_string typeName, Value.isJson_empty⟩
  case h_2 =>
    refine List.forall_mem_singleton.mpr (FieldNode.holdsJson_of_unconditioned
      (List.forall_mem_nil _) rfl Value.isJson_empty ?_ rfl)
    simp only [pageTitlePalette, List.forall_mem_cons]
    refine ⟨?_, ?_, ?_, ?_, ?_, hNone⟩ <;>
      exact FieldNode.holdsJson_of_unconditioned (List.forall_mem_nil _) rfl Value.isJson_empty
        hNone rfl
  case h_3 => exact hNone

theorem Site.holdsJson_of_mem_fields {site : Site}
    (hNodes : ∀ node ∈ site.nodes, node.HoldsJson Admits) {node : FieldNode}
    (hNode : node ∈ site.fields) : node.HoldsJson Admits := by
  rcases mem_nodes_or_palette hNode with hTop | ⟨palette, hPalette, hEntry⟩
  · exact hNodes node hTop
  · exact (hNodes palette hPalette).fields node hEntry

section Run

variable {environment : Environment} {documents : List SchemaDocument} {result : CompiledResult}

/-- What holds of the nodes of all documents holds of the nodes of every pass. -/
theorem holdsJson_of_mem_passes (hRun : (runWalk environment documents).result = .ok ())
    (hDocuments : ∀ document ∈ documents, document.HoldsJson Admits) {pass : Pass}
    (hPass : pass ∈ (runWalk environment documents).emission.passes) :
    ∀ node ∈ pass.site.nodes, node.HoldsJson Admits := by
  have hSites := runWalk_sites hRun
  rw [hSites.passes] at hPass
  obtain ⟨site, hSite, hBelow⟩ := List.mem_flatMap.mp hPass
  obtain ⟨before, document, after, hSplit, hMade⟩ := SchemaDocument.mem_rootSites_iff.mp hSite
  obtain ⟨context, _, hRoot⟩ := SchemaDocument.rootSite?_eq_some_iff.mp hMade
  have hDocument : document ∈ documents := by simp [hSplit]
  have hTop : ∀ node ∈ site.nodes, node.HoldsJson Admits := by
    rw [hRoot]
    exact List.forall_mem_append.mpr
      ⟨PassContext.holdsJson_addedNodes, (hDocuments document hDocument).fields⟩
  refine (hSites.succeeds site hSite).forall_mem_passes
    (P := fun site => ∀ node ∈ site.nodes, node.HoldsJson Admits) ?_ hTop pass hBelow
  intro outer collection inner hCollection hChild hOuter
  rw [Site.nodes_of_child? hChild]
  exact (Site.holdsJson_of_mem_fields hOuter hCollection).fields

/-- The priority of a content type is that of its document, or none. -/
theorem Pass.Compiled.priority_eq {pass : Pass} (hPass : pass.Compiled) :
    pass.contentType.priority =
      if pass.context.isRootTable then pass.context.document.priority else 0 := by
  obtain ⟨contentType, hType, hMade⟩ := hPass.contentType_eq
  obtain ⟨parts, _, hType⟩ := bind_eq_ok_iff.mp hType
  cases hType
  rw [hMade]
  unfold shownType PassContext.titledType
  split <;> rfl

/-! ## Fields and tables -/

/-- A field that a pass stores holds what its node holds. -/
theorem Pass.Compiled.holdsJson_of_lookup {pass : Pass} (hPass : pass.Compiled)
    (hSite : pass.site.Succeeds) (hNodes : ∀ node ∈ pass.site.nodes, node.HoldsJson Admits)
    (hRename : ∀ names v, Admits v → Admits (Condition.rename names v)) {key : String}
    {stored : CompiledField} (hStored : pass.table.fields.lookup key = some stored) :
    stored.HoldsJson Admits := by
  obtain ⟨node, hNode, _, type, hType, rfl⟩ := hPass.exists_node_of_lookup hStored
  have hHolds := Site.holdsJson_of_mem_fields hNodes hNode
  have hForm : type.kind = .flexForm → FlexForm.WellFormed pass.context node.fields := by
    intro hKind
    have hKindOf : pass.context.kindOf? node = some .flexForm := by
      rw [PassContext.kindOf?_of_typeOf? hType, hKind]
    exact hSite.admissible.forms node hNode hKindOf
  have hConfig :
      (Value.object (pass.context.compiledField pass.path type node key).config).IsJson :=
    PassContext.isJson_config_compiledField hForm hHolds
  obtain ⟨config, hMade⟩ := pass.context.exists_compiledField_eq pass.path type node key
  rw [hMade] at hConfig ⊢
  refine ⟨fun v hCond => ?_, hConfig⟩
  obtain ⟨authored, hAuthored, rfl⟩ := Option.map_eq_some_iff.mp hCond
  obtain ⟨hJson, hAdmits⟩ := hHolds.attributes.displayCond authored hAuthored
  exact ⟨Condition.isJson_rename _ hJson, hRename _ authored hAdmits⟩

/-- Fields that are laid over each other leave what each of them holds. -/
theorem CompiledField.LaidOver.holdsJson {laid : List CompiledField} {field : CompiledField}
    (hLaid : LaidOver laid field) (hEach : ∀ one ∈ laid, one.HoldsJson Admits) :
    field.HoldsJson Admits := by
  constructor
  · intro v hCond
    rw [hLaid.displayCond] at hCond
    obtain ⟨one, hOne, hOwn⟩ := List.mem_map.mp (mem_of_lastDeclared hCond)
    exact (hEach one hOne).displayCond v hOwn
  · obtain ⟨first, rest, rfl, hConfig⟩ := hLaid.config
    obtain ⟨hFirst, hRest⟩ := List.forall_mem_cons.mp hEach
    rw [hConfig]
    have hStart := hFirst.config
    generalize Value.object first.config = config at hStart
    clear hLaid hEach hConfig hFirst
    induction rest generalizing config with
    | nil => exact hStart
    | cons upper rest ih =>
        obtain ⟨hUpper, hLater⟩ := List.forall_mem_cons.mp hRest
        exact ih hLater _ (Value.isJson_merge hStart hUpper.config)

/-- A JSON text can hold every table of a result, whatever the documents are read of. -/
theorem holdsJson_of_mem_tables (hResult : compile environment documents = .ok result)
    (hDocuments : ∀ document ∈ documents, document.HoldsJson Admits)
    (hRename : ∀ names v, Admits v → Admits (Condition.rename names v)) {name : String}
    {table : TableDefinition} (hTable : (name, table) ∈ result.tables) :
    table.HoldsJson Admits := by
  obtain ⟨hRun, _⟩ := compile_eq_ok_iff.mp hResult
  obtain ⟨hLaid, hTypes⟩ := laidOver_of_mem_tables hResult hTable
  have hStored {pass : Pass} (hPass : pass ∈ (runWalk environment documents).emission.passes)
      {key : String} {stored : CompiledField}
      (hLookup : pass.table.fields.lookup key = some stored) : stored.HoldsJson Admits :=
    (compiled_of_mem_passes hPass).holdsJson_of_lookup (succeeds_of_mem_passes hRun hPass)
      (holdsJson_of_mem_passes hRun hDocuments hPass) hRename hLookup
  have hPassOf {pass : Pass} (hOn : pass ∈ (runWalk environment documents).emission.passesOn name) :
      pass ∈ (runWalk environment documents).emission.passes := (List.mem_filter.mp hOn).1
  refine ⟨hLaid.distinct, List.forall_mem_append.mpr ⟨?_, ?_⟩, ?_⟩
  · refine List.forall_mem_map.mpr fun (key, field) hEntry => ?_
    refine (hLaid.field key field
      ((Entries.mem_iff_lookup hLaid.distinct.fields).mp hEntry)).holdsJson fun one hOne => ?_
    obtain ⟨definition, hDefinition, hLookup⟩ := List.mem_filterMap.mp hOne
    obtain ⟨pass, hOn, rfl⟩ := List.mem_map.mp hDefinition
    exact hStored (hPassOf hOn) hLookup
  · rw [hTypes]
    intro field hField
    obtain ⟨_, hType, hColumn⟩ := List.mem_flatMap.mp hField
    obtain ⟨pass, hOn, rfl⟩ := List.mem_map.mp hType
    have hCompiled := compiled_of_mem_passes (hPassOf hOn)
    exact hStored (hPassOf hOn) (hCompiled.lookup_of_mem_overrideColumns hColumn)
  · rw [hTypes]
    refine List.forall_mem_map.mpr fun pass hOn => ?_
    have hDocument := (tableName_of_mem_passes hRun (hPassOf hOn)).1
    rw [(compiled_of_mem_passes (hPassOf hOn)).priority_eq]
    split
    · exact (hDocuments _ hDocument).priority
    · decide

/-- Every table of a successful run over documents that were read is written as a JSON value
from which it is read again, up to display conditions that are null: it is read as it was
exactly when it has none.  Documents that are read of JSON values, whose doubles are numbers,
lead to no such condition. -/
theorem readAgain_of_compile
    (hRead : ∀ document ∈ documents, ∃ d, SchemaDocument.decode d = .ok document)
    (hResult : compile environment documents = .ok result) {name : String}
    {table : TableDefinition} (hTable : (name, table) ∈ result.tables) :
    table.encode.IsJson ∧
      TableDefinition.decode (.ofValue table.encode) = .ok table.withoutNull ∧
      (TableDefinition.decode (.ofValue table.encode) = .ok table ↔
        ∀ field ∈ table.describedFields, field.displayCond ≠ some .null) ∧
      ((∀ document ∈ documents, ∃ v : Value, v.Finite ∧
          SchemaDocument.decode (.ofValue v) = .ok document) →
        TableDefinition.decode (.ofValue table.encode) = .ok table) := by
  have hHolds : table.HoldsJson fun _ => True := by
    refine holdsJson_of_mem_tables hResult (fun document hDocument => ?_)
      (fun _ _ _ => trivial) hTable
    obtain ⟨d, hDecode⟩ := hRead document hDocument
    exact SchemaDocument.holdsJson_of_decode hDecode
  have hAgain := TableDefinition.decode_encode hHolds
  have hSame : TableDefinition.decode (.ofValue table.encode) = .ok table ↔
      ∀ field ∈ table.describedFields, field.displayCond ≠ some .null := by
    rw [hAgain, Except.ok.injEq]
    exact TableDefinition.withoutNull_eq_self_iff
  refine ⟨TableDefinition.isJson_encode hHolds, hAgain, hSame, fun hValues => hSame.mpr ?_⟩
  have hPresent : table.HoldsJson fun v => v ≠ .null := by
    refine holdsJson_of_mem_tables hResult (fun document hDocument => ?_)
      (fun _ _ hValue => Condition.rename_ne_null hValue) hTable
    obtain ⟨v, hFinite, hDecode⟩ := hValues document hDocument
    exact SchemaDocument.holdsJson_of_decode_ofValue hFinite hDecode
  intro field hField hNull
  exact ((hPresent.fields field hField).displayCond .null hNull).2 rfl

end Run

/-- Which of the described fields of a table have a condition. -/
def TableDefinition.conditioned (definition : TableDefinition) : List Bool :=
  definition.describedFields.map fun field => field.displayCond.isSome

/-- A document with a field that is shown under a condition. -/
def gaugeSource : Value :=
  .object
    [ ("name", .string "acme/gauge"),
      ("fields", .list [.object
        [ ("identifier", .string "value"),
          ("type", .string "Text"),
          ("displayCond", .object [("OR", .list [.string "FIELD:value:>:0", .null])]),
          ("range", .object [("lower", .null), ("upper", .list [])]) ]]) ]

/-- Its table, which has the condition twice, is read again from what is written of it. -/
theorem readAgain_of_compile_gauge :
    ∃ document result table, SchemaDocument.decode (.ofValue gaugeSource) = .ok document ∧
      compile leafletEnvironment [document] = .ok result ∧
      ("tt_content", table) ∈ result.tables ∧
      table.conditioned = [true, true] ∧ table.encode.IsJson ∧
      TableDefinition.decode (.ofValue table.encode) = .ok table := by
  have hConditions : (SchemaDocument.decode (.ofValue gaugeSource)).toOption.bind (fun document =>
      (compile leafletEnvironment [document]).toOption.bind fun result =>
        (result.tables.lookup "tt_content").map TableDefinition.conditioned) =
      some [true, true] := by
    decide +kernel
  obtain ⟨document, hDocument, hRun⟩ := Option.bind_eq_some_iff.mp hConditions
  obtain ⟨result, hSome, hTables⟩ := Option.bind_eq_some_iff.mp hRun
  obtain ⟨table, hLookup, hTold⟩ := Option.map_eq_some_iff.mp hTables
  have hDecode := eq_ok_of_toOption_eq_some hDocument
  have hResult := eq_ok_of_toOption_eq_some hSome
  have hTable := Entries.mem_of_lookup hLookup
  have hFinite : gaugeSource.Finite := by
    simp [gaugeSource, Value.Finite, Value.EntriesFinite, Value.ItemsFinite]
  obtain ⟨hJson, _, _, hAgain⟩ := readAgain_of_compile
    (List.forall_mem_singleton.mpr ⟨.ofValue gaugeSource, hDecode⟩) hResult hTable
  exact ⟨document, result, table, hDecode, hResult, hTable, hTold, hJson,
    hAgain (List.forall_mem_singleton.mpr ⟨gaugeSource, hFinite, hDecode⟩)⟩

/-- What a text says of the document when its condition is spelled as no number. -/
def gaugeData : Datum :=
  let word (text : String) : Datum := .scalar { text }
  .record
    [ (word "name", word "acme/gauge"),
      (word "fields", .list [.record
        [ (word "identifier", word "value"),
          (word "type", word "Text"),
          (word "displayCond", word ".nan") ]]) ]

/-- Its table has a condition that is null, and is read as another one. -/
theorem not_readAgain_gauge :
    ∃ document result table, SchemaDocument.decode gaugeData = .ok document ∧
      compile leafletEnvironment [document] = .ok result ∧
      ("tt_content", table) ∈ result.tables ∧
      TableDefinition.decode (.ofValue table.encode) ≠ .ok table := by
  have hConditions : (SchemaDocument.decode gaugeData).toOption.bind (fun document =>
      (compile leafletEnvironment [document]).toOption.bind fun result =>
        (result.tables.lookup "tt_content").map fun table =>
          (table.conditioned,
            (TableDefinition.decode (.ofValue table.encode)).toOption.map
              TableDefinition.conditioned)) =
      some ([true, true], some [false, false]) := by
    decide +kernel
  obtain ⟨document, hDocument, hRun⟩ := Option.bind_eq_some_iff.mp hConditions
  obtain ⟨result, hSome, hTables⟩ := Option.bind_eq_some_iff.mp hRun
  obtain ⟨table, hLookup, hTold⟩ := Option.map_eq_some_iff.mp hTables
  refine ⟨document, result, table, eq_ok_of_toOption_eq_some hDocument,
    eq_ok_of_toOption_eq_some hSome, Entries.mem_of_lookup hLookup, fun hAgain => ?_⟩
  rw [hAgain] at hTold
  obtain ⟨hBefore, hAfter⟩ := Prod.mk.inj hTold
  have hSame : some table.conditioned = some [false, false] := hAfter
  rw [hBefore] at hSame
  cases hSame

end ContentSchema
