import ContentSchema.Proofs.Entries.Writes
import ContentSchema.Proofs.Pass.Emitted
import Mathlib.Data.List.Forall2

/-!
# What becomes of nodes

The items of a pass correspond to its nodes one list of items per node, in
order.  The correspondence is stated as a relation, one constructor for each
thing that can become of a node, and the walk yields nothing else.

* `PassContext.MakesItems` relates a node to its items.
* `exists_chunks_of_compileNodes` says that the walk follows the relation.
* `forall₂_makes_fieldNodes` and `forall₂_makesPalette` read off the fields and
  the palettes of a pass.
* `Pass.Compiled.exists_chunks` and `Pass.Compiled.exists_tableWith` open a
  compiled pass: its items by nodes, and its table by items.

The relation does NOT mention claims: whether identifiers are free decides only
whether there is a result.
-/

namespace ContentSchema

namespace PassContext

/-- What is added to the configuration of a node repeats none of its keys. -/
theorem distinct_config_compiledField {context : PassContext} {path : LanguagePath}
    {node : FieldNode} (hNode : Entries.Distinct node.config) (type : TypeDescriptor)
    (unique : String) :
    Entries.Distinct (context.compiledField path type node unique).config := by
  have hCarried : Entries.Distinct (carriedConfig node type) :=
    hNode.sublist (List.filter_sublist.map _)
  unfold compiledField
  split
  · exact Entries.distinct_insertAll (Entries.distinct_insertAll hCarried)
  · exact Entries.distinct_insertAll hCarried

/-- `node` is compiled into `field`. -/
def Makes (context : PassContext) (path : LanguagePath) (node : FieldNode)
    (field : CompiledField) : Prop :=
  ∃ type unique, (context.Resolves node ∧ context.typeOf? node = some type) ∧
    context.fieldIdentifier node.toFieldAttributes node.identifierText = .ok unique ∧
    field = context.compiledField path type node unique

/-- What can become of an entry of a palette. -/
inductive MakesEntry (context : PassContext) (path : LanguagePath) (node : FieldNode) :
    PaletteEntry → Prop where
  | linebreak (hKind : context.kindOf? node = some .linebreak) :
      MakesEntry context path node .linebreak
  | field {field : CompiledField} (hKind : context.kindOf? node ≠ some .linebreak)
      (made : context.Makes path node field) : MakesEntry context path node (.field field)

/-- What can become of a node of a pass. -/
inductive MakesItems (context : PassContext) (path : LanguagePath) (node : FieldNode) :
    List PassItem → Prop where
  | tab (hKind : context.kindOf? node = some .tab) :
      MakesItems context path node [.tab node.identifierText]
  /-- A palette without fields leaves nothing. -/
  | empty (hKind : context.kindOf? node = some .palette) (hFields : node.fields = []) :
      MakesItems context path node []
  | palette {unique : String} {entries : List PaletteEntry}
      (hKind : context.kindOf? node = some .palette) (hFields : node.fields ≠ [])
      (named : context.paletteIdentifier node.toFieldAttributes node.identifierText = .ok unique)
      (made : List.Forall₂ (MakesEntry context path) node.fields entries) :
      MakesItems context path node
        [.palette (paletteOf path node unique entries) (entries.filterMap PaletteEntry.field?)]
  | field {field : CompiledField} (hPalette : context.kindOf? node ≠ some .palette)
      (hTab : context.kindOf? node ≠ some .tab) (made : context.Makes path node field) :
      MakesItems context path node [.field field]

variable {context : PassContext} {path : LanguagePath} {claims claims' : Claims}
  {node : FieldNode}

/-! ## The walk follows the relation -/

theorem makes_of_compileField {type : TypeDescriptor} {nested : NestedWalk}
    {field : CompiledField} (hType : context.Resolves node ∧ context.typeOf? node = some type)
    (hField : (context.compileField path claims type node nested).result =
      .ok (claims', field)) : context.Makes path node field := by
  obtain ⟨_, _, _, unique, hUnique, _, hMade⟩ := compileField_result_eq_ok_iff.mp hField
  exact ⟨type, unique, hType, hUnique, hMade⟩

theorem makesEntry_of_compileEntry {palette : String} {entry : PaletteEntry}
    (hEntry : (context.compileEntry path palette claims node).result = .ok (claims', entry)) :
    context.MakesEntry path node entry := by
  obtain ⟨type, hType, hRole⟩ := compileEntry_result_eq_ok_iff.mp hEntry
  have hKind := kindOf?_of_typeOf? hType.2
  have hFieldRole (hLinebreak : type.kind ≠ .linebreak) {field : CompiledField}
      (hField : (context.compileField path claims type node (nodesWalk node.fields)).result =
        .ok (claims', field)) : context.MakesEntry path node (.field field) :=
    .field (by simpa [hKind] using hLinebreak) (makes_of_compileField hType hField)
  cases hCase : type.kind <;> rw [hCase] at hRole hKind hFieldRole
  case palette => contradiction
  case tab => contradiction
  case linebreak =>
    obtain ⟨_, rfl⟩ := hRole
    exact .linebreak hKind
  all_goals
    obtain ⟨field, hField, rfl⟩ := hRole
    exact hFieldRole (by simp) hField

theorem forall₂_makesEntry_of_compileEntries {palette : String} {nodes : List FieldNode}
    {entries : List PaletteEntry}
    (hEntries : (context.compileEntries path palette claims nodes).result =
      .ok (claims', entries)) : List.Forall₂ (context.MakesEntry path) nodes entries := by
  induction nodes generalizing claims claims' entries with
  | nil =>
      obtain ⟨_, rfl⟩ := compileEntries_nil_result_eq_ok_iff.mp hEntries
      exact .nil
  | cons node rest ih =>
      obtain ⟨_, entry, more, hEntry, hMore, rfl⟩ :=
        compileEntries_cons_result_eq_ok_iff.mp hEntries
      exact .cons (makesEntry_of_compileEntry hEntry) (ih hMore)

theorem makesItems_of_compileNode {items : List PassItem}
    (hNode : (context.compileNode path claims node).result = .ok (claims', items)) :
    context.MakesItems path node items := by
  obtain ⟨type, hType, hRole⟩ := compileNode_result_eq_ok_iff.mp hNode
  have hKind := kindOf?_of_typeOf? hType.2
  have hFieldRole (hPalette : type.kind ≠ .palette) (hTab : type.kind ≠ .tab)
      {field : CompiledField}
      (hField : (context.compileField path claims type node (nodesWalk node.fields)).result =
        .ok (claims', field)) : context.MakesItems path node [.field field] :=
    .field (by simpa [hKind] using hPalette) (by simpa [hKind] using hTab)
      (makes_of_compileField hType hField)
  cases hCase : type.kind <;> rw [hCase] at hRole hKind hFieldRole
  case linebreak => contradiction
  case tab =>
    obtain ⟨_, _, _, rfl⟩ := compileTab_result_eq_ok_iff.mp hRole
    exact .tab hKind
  case palette =>
    obtain ⟨_, hPalette⟩ := compilePalette_result_eq_ok_iff.mp hRole.2
    split at hPalette
    case isTrue hFields =>
      obtain ⟨_, rfl⟩ := hPalette
      exact .empty hKind hFields
    case isFalse hFields =>
      obtain ⟨unique, entries, hUnique, hEntries, rfl⟩ := hPalette
      exact .palette hKind hFields hUnique (forall₂_makesEntry_of_compileEntries hEntries)
  all_goals
    obtain ⟨field, hField, rfl⟩ := hRole
    exact hFieldRole (by simp) (by simp) hField

/-- The items of a pass fall into one list for each node. -/
theorem exists_chunks_of_compileNodes {nodes : List FieldNode} {items : List PassItem}
    (hNodes : (context.compileNodes path claims nodes).result = .ok (claims', items)) :
    ∃ chunks, List.Forall₂ (context.MakesItems path) nodes chunks ∧ items = chunks.flatten := by
  induction nodes generalizing claims claims' items with
  | nil =>
      obtain ⟨_, rfl⟩ := compileNodes_nil_result_eq_ok_iff.mp hNodes
      exact ⟨[], .nil, rfl⟩
  | cons node rest ih =>
      obtain ⟨_, first, more, hFirst, hMore, rfl⟩ :=
        compileNodes_cons_result_eq_ok_iff.mp hNodes
      obtain ⟨chunks, hChunks, rfl⟩ := ih hMore
      exact ⟨first :: chunks, .cons (makesItems_of_compileNode hFirst) hChunks, rfl⟩

/-! ## Fields -/

theorem forall₂_makes_paletteFields {nodes : List FieldNode} {entries : List PaletteEntry}
    (hEntries : List.Forall₂ (context.MakesEntry path) nodes entries) :
    List.Forall₂ (context.Makes path) (context.paletteFields nodes)
      (entries.filterMap PaletteEntry.field?) := by
  unfold paletteFields
  induction hEntries with
  | nil => exact .nil
  | cons hEntry _ ih =>
      cases hEntry with
      | linebreak hKind =>
          rw [List.filter_cons_of_neg (by simp [hKind])]
          exact ih
      | field hKind made =>
          rw [List.filter_cons_of_pos (by simp [hKind])]
          exact .cons made ih

theorem MakesItems.forall₂_makes {items : List PassItem}
    (hItems : context.MakesItems path node items) :
    List.Forall₂ (context.Makes path) (context.ownFields node)
      (items.flatMap PassItem.fields) := by
  unfold ownFields
  cases hItems with
  | tab hKind =>
      rw [hKind]
      exact .nil
  | empty hKind hFields =>
      rw [hKind, hFields]
      exact .nil
  | palette hKind hFields named made =>
      rw [hKind]
      simpa [PassItem.fields] using forall₂_makes_paletteFields made
  | field hPalette hTab made =>
      split
      · contradiction
      · contradiction
      · exact .cons made .nil

/-- The fields of a pass are those of its field nodes, in order. -/
theorem forall₂_makes_fieldNodes {nodes : List FieldNode} {chunks : List (List PassItem)}
    (hChunks : List.Forall₂ (context.MakesItems path) nodes chunks) :
    List.Forall₂ (context.Makes path) (context.fieldNodes nodes)
      (Pass.compiledFields chunks.flatten) := by
  unfold fieldNodes Pass.compiledFields
  induction hChunks with
  | nil => exact .nil
  | cons hNode _ ih =>
      rw [List.flatMap_cons, List.flatten_cons, List.flatMap_append]
      exact List.rel_append hNode.forall₂_makes ih

/-! ## Palettes -/

/-- The palettes of a pass that are not empty. -/
def paletteNodes (context : PassContext) (nodes : List FieldNode) : List FieldNode :=
  (context.nodesOfKind .palette nodes).filter fun node => !node.fields.isEmpty

/-- `node` is compiled into the palette `definition`. -/
def MakesPalette (context : PassContext) (path : LanguagePath) (node : FieldNode)
    (definition : PaletteDefinition) : Prop :=
  ∃ unique entries,
    context.paletteIdentifier node.toFieldAttributes node.identifierText = .ok unique ∧
    List.Forall₂ (context.MakesEntry path) node.fields entries ∧
    definition = paletteOf path node unique entries

theorem MakesItems.forall₂_makesPalette {items : List PassItem}
    (hItems : context.MakesItems path node items) :
    List.Forall₂ (context.MakesPalette path) (context.paletteNodes [node])
      (items.filterMap PassItem.palette?) := by
  unfold paletteNodes nodesOfKind
  cases hItems with
  | tab hKind => simp [hKind, PassItem.palette?]
  | empty hKind hFields => simp [hKind, hFields]
  | palette hKind hFields named made =>
      have hSome : (!node.fields.isEmpty) = true := by simpa using hFields
      simp only [hKind, List.filter_cons, decide_true, if_true, List.filter_nil, hSome]
      exact .cons ⟨_, _, named, made, rfl⟩ .nil
  | field hPalette hTab made => simp [hPalette, PassItem.palette?]

/-- The palettes of a pass are those of its palette nodes that are not empty, in
order. -/
theorem forall₂_makesPalette {nodes : List FieldNode} {chunks : List (List PassItem)}
    (hChunks : List.Forall₂ (context.MakesItems path) nodes chunks) :
    List.Forall₂ (context.MakesPalette path) (context.paletteNodes nodes)
      (chunks.flatten.filterMap PassItem.palette?) := by
  induction hChunks with
  | nil => exact .nil
  | @cons node _ rest _ hNode _ ih =>
      have hSplit : context.paletteNodes (node :: rest) =
          context.paletteNodes [node] ++ context.paletteNodes rest := by
        unfold paletteNodes nodesOfKind
        rw [← List.singleton_append, List.filter_append, List.filter_append]
      rw [hSplit, List.flatten_cons, List.filterMap_append]
      exact List.rel_append hNode.forall₂_makesPalette ih

/-- A palette shows exactly its fields, under their final identifiers. -/
theorem fieldIdentifiers_paletteOf (unique : String) (entries : List PaletteEntry) :
    (paletteOf path node unique entries).fieldIdentifiers =
      (entries.filterMap PaletteEntry.field?).map CompiledField.uniqueIdentifier := by
  unfold PaletteDefinition.fieldIdentifiers paletteOf
  induction entries with
  | nil => rfl
  | cons entry rest ih =>
      cases entry with
      | field compiled =>
          simp only [List.map_cons, PaletteEntry.item, PaletteItem.field?, List.filterMap_cons,
            PaletteEntry.field?]
          rw [ih]
      | linebreak => exact ih

end PassContext

/-! ## Compiled passes -/

theorem exists_of_forall₂_mem_right {α β : Type} {R : α → β → Prop} {items : List α}
    {others : List β} (hRelated : List.Forall₂ R items others) {other : β}
    (hOther : other ∈ others) : ∃ item ∈ items, R item other := by
  induction hRelated with
  | nil => contradiction
  | cons hHead _ ih =>
      rcases List.mem_cons.mp hOther with rfl | hRest
      · exact ⟨_, List.mem_cons_self, hHead⟩
      · obtain ⟨item, hItem, hTail⟩ := ih hRest
        exact ⟨item, List.mem_cons_of_mem _ hItem, hTail⟩

namespace Pass

theorem Compiled.named {pass : Pass} (hPass : pass.Compiled) : pass.context.Named := by
  obtain ⟨_, _, hType, _, _⟩ := hPass
  obtain ⟨parts, hParts, _⟩ := bind_eq_ok_iff.mp hType
  exact ⟨parts, hParts⟩

/-- The items of a compiled pass are made of its nodes. -/
theorem Compiled.exists_chunks {pass : Pass} (hPass : pass.Compiled) :
    ∃ chunks, List.Forall₂ (pass.context.MakesItems pass.path) pass.nodes chunks ∧
      pass.items = chunks.flatten := by
  obtain ⟨_, _, _, hNodes, _⟩ := hPass
  exact PassContext.exists_chunks_of_compileNodes hNodes

theorem Compiled.exists_tableWith {pass : Pass} (hPass : pass.Compiled) :
    ∃ sortFields, pass.table = tableWith pass.context pass.items sortFields := by
  obtain ⟨_, _, _, _, hClose⟩ := hPass
  obtain ⟨table, hTable, hMade⟩ := close_eq_ok_iff.mp hClose
  obtain ⟨sortFields, _, rfl⟩ := tableOf_eq_ok_iff.mp hTable
  exact ⟨sortFields, by rw [hMade]⟩

/-- Every listed field is one of the fields of the pass, its display condition
resolved. -/
theorem Compiled.exists_field_of_mem_fields {pass : Pass} (hPass : pass.Compiled) {key : String}
    {stored : CompiledField} (hStored : (key, stored) ∈ pass.table.fields) :
    ∃ field ∈ compiledFields pass.items, field.uniqueIdentifier = key ∧
      stored = resolveCondition (identifierMap pass.items) field := by
  obtain ⟨sortFields, hTable⟩ := hPass.exists_tableWith
  rw [hTable] at hStored
  obtain ⟨⟨_, compiled⟩, hCompiled, hEntry⟩ := List.mem_map.mp hStored
  cases hEntry
  obtain ⟨_, hField, hOriginal⟩ := List.mem_map.mp (Entries.mem_of_mem_ofList hCompiled)
  cases hOriginal
  exact ⟨_, hField, rfl, rfl⟩

theorem Compiled.keys_fields {pass : Pass} (hPass : pass.Compiled) :
    Entries.keys pass.table.fields =
      ((compiledFields pass.items).map CompiledField.uniqueIdentifier).eraseDups := by
  obtain ⟨sortFields, hTable⟩ := hPass.exists_tableWith
  rw [hTable]
  simp [tableWith, Entries.keys_ofList, Function.comp_def]

theorem Compiled.keys_palettes {pass : Pass} (hPass : pass.Compiled) :
    Entries.keys pass.table.palettes =
      ((pass.items.filterMap PassItem.palette?).map PaletteDefinition.identifier).eraseDups := by
  obtain ⟨sortFields, hTable⟩ := hPass.exists_tableWith
  rw [hTable]
  simp [tableWith, Entries.keys_ofList, Function.comp_def]

end Pass
end ContentSchema
