import ContentSchema.Proofs.Pass.Columns
import ContentSchema.Proofs.Run.Sites

/-!
# Parent references

A child table is referred to with the field that its collection is compiled
into.  The reference is made while the nodes of the pass are still visited, and
what is done to fields once all of them are known is not done to it: the
identifiers in its display condition stay as authored, and a later field with
the same final identifier replaces the stored field but not the reference.

* `mem_parentReferences_iff` says where references come from.
* `Pass.Compiled.lookup_fields` says which field a pass stores under a final
  identifier.
* `stored_of_mem_parentReferences` compares the two.

Both copies always have the same configuration and the same texts unless the
field is replaced: only a display condition does NOT have to agree.
-/

namespace ContentSchema

/-! ## Stored fields -/

namespace Pass

variable {pass : Pass}

/-- Every field node of a pass is compiled into one of its fields. -/
theorem Compiled.mem_compiledFields (hPass : pass.Compiled) {node : FieldNode}
    (hNode : node ∈ pass.site.fields) {type : TypeDescriptor}
    (hType : pass.context.typeOf? node = some type) :
    pass.context.compiledField pass.path type node (pass.context.fieldName node) ∈
      compiledFields pass.items := by
  obtain ⟨chunks, hChunks, hItems⟩ := hPass.exists_chunks
  have hFields := PassContext.forall₂_makes_fieldNodes hChunks
  rw [← hItems] at hFields
  obtain ⟨field, hField, other, unique, ⟨_, hOther⟩, hUnique, rfl⟩ :=
    exists_of_forall₂_mem_right hFields.flip hNode
  obtain rfl := Option.some.inj (hOther.symm.trans hType)
  rw [PassContext.fieldIdentifier_eq hPass.named] at hUnique
  obtain rfl := Except.ok.inj hUnique
  exact hField

/-- The fields of a pass are authored as its field nodes are. -/
theorem Compiled.map_identifier (hPass : pass.Compiled) :
    (compiledFields pass.items).map CompiledField.identifier =
      pass.site.fields.map FieldNode.identifierText := by
  obtain ⟨chunks, hChunks, hItems⟩ := hPass.exists_chunks
  rw [hItems]
  symm
  apply map_eq_map_of_forall₂ _ (PassContext.forall₂_makes_fieldNodes hChunks)
  rintro node _ ⟨type, unique, _, _, rfl⟩
  rw [PassContext.compiledField_identifier]

theorem Compiled.nodup_identifiers (hPass : pass.Compiled) :
    ((compiledFields pass.items).map CompiledField.identifier).Nodup := by
  rw [hPass.map_identifier]
  exact (Claims.admits_start_iff.mp hPass.admits).1

/-- A pass stores the last of its fields with a final identifier, its display
condition resolved. -/
theorem Compiled.lookup_fields (hPass : pass.Compiled) (key : String) :
    pass.table.fields.lookup key =
      ((compiledFields pass.items).filter fun field => field.uniqueIdentifier = key).getLast?.map
        (resolveCondition (identifierMap pass.items)) := by
  obtain ⟨sortFields, hTable⟩ := hPass.exists_tableWith
  rw [hTable]
  show (Entries.mapValues _ _).lookup key = _
  rw [Entries.lookup_mapValues, Entries.ofList, Entries.lookup_insertAll, List.filter_map]
  simp [Function.comp_def]

/-- What a pass stores under a name is compiled from a field of that name. -/
theorem Compiled.exists_node_of_lookup (hPass : pass.Compiled) {key : String}
    {stored : CompiledField} (hStored : pass.table.fields.lookup key = some stored) :
    ∃ node ∈ pass.site.fields, pass.context.fieldName node = key ∧
      ∃ type, pass.context.typeOf? node = some type ∧
        stored = resolveCondition (identifierMap pass.items)
          (pass.context.compiledField pass.path type node key) := by
  rw [hPass.lookup_fields] at hStored
  obtain ⟨field, hLast, rfl⟩ := Option.map_eq_some_iff.mp hStored
  obtain ⟨hField, hKey⟩ := List.mem_filter.mp (List.mem_of_getLast? hLast)
  obtain ⟨chunks, hChunks, hItems⟩ := hPass.exists_chunks
  rw [hItems] at hField
  obtain ⟨node, hNode, type, unique, ⟨_, hType⟩, hUnique, rfl⟩ :=
    exists_of_forall₂_mem_right (PassContext.forall₂_makes_fieldNodes hChunks) hField
  rw [PassContext.compiledField_uniqueIdentifier] at hKey
  obtain rfl := of_decide_eq_true hKey
  rw [PassContext.fieldIdentifier_eq hPass.named] at hUnique
  exact ⟨node, hNode, Except.ok.inj hUnique, type, hType, rfl⟩

theorem resolveCondition_eq_self_iff {names : Entries String} {field : CompiledField} :
    resolveCondition names field = field ↔
      field.displayCond.map (Condition.rename names) = field.displayCond := by
  constructor
  · intro hSame
    exact congrArg CompiledField.displayCond hSame
  · intro hSame
    unfold resolveCondition
    rw [hSame]

/-- Whether a stored field equals one of the fields of the pass: the pass has to
store that one, and resolving its display condition must change nothing. -/
theorem Compiled.exists_stored (hPass : pass.Compiled) {field : CompiledField}
    {before after : List CompiledField}
    (hSplit : compiledFields pass.items = before ++ field :: after) :
    ∃ stored, pass.table.fields.lookup field.uniqueIdentifier = some stored ∧
      ((∀ later ∈ after, later.uniqueIdentifier ≠ field.uniqueIdentifier) →
        stored = resolveCondition (identifierMap pass.items) field) ∧
      (stored = field ↔
        (∀ later ∈ after, later.uniqueIdentifier ≠ field.uniqueIdentifier) ∧
          field.displayCond.map (Condition.rename (identifierMap pass.items)) =
            field.displayCond) := by
  let same (other : CompiledField) : Bool := other.uniqueIdentifier = field.uniqueIdentifier
  have hLookup : pass.table.fields.lookup field.uniqueIdentifier =
      some (resolveCondition (identifierMap pass.items)
        ((after.filter same).getLast?.getD field)) := by
    rw [hPass.lookup_fields, hSplit, List.filter_append, List.filter_cons_of_pos (by simp),
      List.getLast?_append, List.getLast?_cons]
    rfl
  refine ⟨_, hLookup, ?_⟩
  -- The stored field comes from the given one unless a later field replaces it.
  by_cases hFree : ∀ later ∈ after, later.uniqueIdentifier ≠ field.uniqueIdentifier
  · have hNone : after.filter same = [] := by
      rw [List.filter_eq_nil_iff]
      exact fun later hLater hSame => hFree later hLater (of_decide_eq_true hSame)
    rw [hNone]
    refine ⟨fun _ => rfl, ?_⟩
    rw [and_iff_right hFree]
    exact resolveCondition_eq_self_iff
  · refine ⟨fun hFree' => absurd hFree' hFree, ?_⟩
    obtain ⟨later, hLater, hSame⟩ : ∃ later ∈ after,
        later.uniqueIdentifier = field.uniqueIdentifier := by simpa using hFree
    have hSome : after.filter same ≠ [] :=
      List.ne_nil_of_mem (List.mem_filter.mpr ⟨hLater, decide_eq_true hSame⟩)
    let last := (after.filter same).getLast hSome
    have hLast : last ∈ after := (List.mem_filter.mp (List.getLast_mem hSome)).1
    rw [List.getLast?_eq_some_getLast hSome, Option.getD_some]
    -- What is stored instead is authored under another identifier.
    have hAuthored : field.identifier ∉ after.map CompiledField.identifier := by
      have hNodup := hPass.nodup_identifiers
      rw [hSplit, List.map_append, List.map_cons] at hNodup
      exact (List.nodup_cons.mp (List.nodup_append.mp hNodup).2.1).1
    refine ⟨fun hStored => ?_, fun hBoth => absurd hBoth.1 hFree⟩
    have hIdentifier := congrArg CompiledField.identifier hStored
    change last.identifier = field.identifier at hIdentifier
    exact absurd (hIdentifier ▸ List.mem_map_of_mem hLast) hAuthored

end Pass

/-! ## References -/

section References

variable {environment : Environment} {documents : List SchemaDocument} {result : CompiledResult}

/-- The references of a result are those that the run emitted. -/
theorem mem_parentReferences_iff (hResult : compile environment documents = .ok result)
    {table : String} {field : CompiledField} :
    (∃ fields, (table, fields) ∈ result.parentReferences ∧ field ∈ fields) ↔
      (table, field) ∈ (runWalk environment documents).emission.references := by
  obtain ⟨_, rfl⟩ := compile_eq_ok_iff.mp hResult
  let references := (runWalk environment documents).emission.references
  let kept := references.foldl (fun kept entry => Entries.append entry.1 entry.2 kept)
    ([] : Entries (List CompiledField))
  have hDistinct : Entries.Distinct kept := Entries.distinct_updateAll Entries.distinct_nil
  -- Nothing is ever removed, so the fields kept for a table are all that refer to it.
  have hKept := Entries.getD_lookup_appendAll references table
  show (∃ fields, (table, fields) ∈ kept ∧ field ∈ fields) ↔ (table, field) ∈ references
  have hMem : (table, field) ∈ references ↔ field ∈ (kept.lookup table).getD [] := by
    rw [hKept]
    simp
  rw [hMem]
  constructor
  · rintro ⟨fields, hFields, hField⟩
    rw [(Entries.mem_iff_lookup hDistinct).mp hFields]
    exact hField
  · intro hField
    cases hLookup : kept.lookup table with
    | none =>
        rw [hLookup] at hField
        contradiction
    | some fields =>
        rw [hLookup] at hField
        exact ⟨fields, Entries.mem_of_lookup hLookup, hField⟩

/-- The field of a reference is one of the pass that holds the collection. -/
theorem exists_split_of_reference? {pass : Pass} (hPass : pass.Compiled) {node : FieldNode}
    (hNode : node ∈ pass.site.fields) {table : String} {field : CompiledField}
    (hReference : pass.context.reference? pass.path node = some (table, field)) :
    table = pass.context.childTable node ∧
      ∃ before after, Pass.compiledFields pass.items = before ++ field :: after := by
  unfold PassContext.reference? at hReference
  split at hReference
  case h_2 => contradiction
  case h_1 type hType =>
    split at hReference
    case isFalse => contradiction
    case isTrue =>
      cases hReference
      exact ⟨rfl, List.append_of_mem (hPass.mem_compiledFields hNode hType)⟩

/-- A content type overrides the stored fields other than the discriminator. -/
theorem Pass.Compiled.mem_overrideColumns_iff {pass : Pass} (hPass : pass.Compiled) {key : String}
    {stored : CompiledField} (hStored : pass.table.fields.lookup key = some stored) :
    stored ∈ pass.contentType.overrideColumns ↔ pass.context.typeField ≠ some key := by
  have hKey : stored.uniqueIdentifier = key :=
    hPass.closed.fields key stored (Entries.mem_of_lookup hStored)
  have hListed : stored ∈ Entries.values pass.table.fields :=
    List.mem_map_of_mem (Entries.mem_of_lookup hStored)
  rw [hPass.overrideColumns_eq, overrideColumns, List.mem_filter, and_iff_right hListed, hKey,
    decide_eq_true_iff]
  exact ne_comm

/-- Every parent reference carries a field of the pass that holds the collection.
The pass stores the same field exactly when no later field takes its final
identifier and its display condition names no field by an identifier that is not
final. -/
theorem stored_of_mem_parentReferences (hResult : compile environment documents = .ok result)
    {table : String} {fields : List CompiledField}
    (hEntry : (table, fields) ∈ result.parentReferences) {field : CompiledField}
    (hField : field ∈ fields) :
    ∃ pass ∈ (runWalk environment documents).emission.passes, ∃ node ∈ pass.site.fields,
      pass.context.reference? pass.path node = some (table, field) ∧
        table = pass.context.childTable node ∧
        ∃ before after, Pass.compiledFields pass.items = before ++ field :: after ∧
          ∃ stored, pass.table.fields.lookup field.uniqueIdentifier = some stored ∧
            (stored ∈ pass.contentType.overrideColumns ↔
              pass.context.typeField ≠ some field.uniqueIdentifier) ∧
            ((∀ later ∈ after, later.uniqueIdentifier ≠ field.uniqueIdentifier) →
              stored = Pass.resolveCondition (Pass.identifierMap pass.items) field) ∧
            (stored = field ↔
              (∀ later ∈ after, later.uniqueIdentifier ≠ field.uniqueIdentifier) ∧
                field.displayCond.map (Condition.rename (Pass.identifierMap pass.items)) =
                  field.displayCond) := by
  obtain ⟨hRun, _⟩ := compile_eq_ok_iff.mp hResult
  have hEmitted := (mem_parentReferences_iff hResult).mp ⟨fields, hEntry, hField⟩
  obtain ⟨pass, hPass, node, hNode, hReference⟩ := (mem_references_iff hRun).mp hEmitted
  have hCompiled := compiled_of_mem_passes hPass
  obtain ⟨hTable, before, after, hSplit⟩ :=
    exists_split_of_reference? hCompiled hNode hReference
  obtain ⟨stored, hStored, hKept, hSame⟩ := hCompiled.exists_stored hSplit
  exact ⟨pass, hPass, node, hNode, hReference, hTable, before, after, hSplit, stored, hStored,
    hCompiled.mem_overrideColumns_iff hStored, hKept, hSame⟩

end References

/-- A document with a collection that is shown depending on another field. -/
def conditionalList : SchemaDocument where
  name := "acme/list"
  fields :=
    [ .ofType "layout" "Text",
      { FieldNode.ofType "items" "Collection" with
        displayCond := some (.string "FIELD:layout:=:wide")
        fields := [.ofType "text" "Text"] } ]

/-- The text of a display condition that consists of one. -/
def CompiledField.conditionText? (field : CompiledField) : Option String :=
  match field.displayCond with
  | some (.string text) => some text
  | _ => none

/-- The reference names the other field as it was authored, the stored field by
its final identifier. -/
theorem parentReferences_conditionalList :
    ((compile galleryEnvironment [conditionalList]).toOption.map fun result =>
      (result.parentReferences.map fun entry =>
          (entry.1, entry.2.map CompiledField.conditionText?),
        ((result.table? "tt_content").bind fun table => table.field? "acme_list_items").map
          CompiledField.conditionText?)) =
      some ([("acme_list_items", [some "FIELD:layout:=:wide"])],
        some (some "FIELD:acme_list_layout:=:wide")) := by
  decide +kernel

/-- The rule at the one reference of that document. -/
theorem stored_of_mem_parentReferences_conditionalList :
    ∃ result fields field, compile galleryEnvironment [conditionalList] = .ok result ∧
      ("acme_list_items", fields) ∈ result.parentReferences ∧ field ∈ fields ∧
        ∃ pass ∈ (runWalk galleryEnvironment [conditionalList]).emission.passes,
          ∃ stored, pass.table.fields.lookup field.uniqueIdentifier = some stored ∧
            (stored ∈ pass.contentType.overrideColumns ↔
              pass.context.typeField ≠ some field.uniqueIdentifier) := by
  have hReferences : ((compile galleryEnvironment [conditionalList]).toOption.map fun result =>
      result.parentReferences.map fun entry => (entry.1, entry.2.length)) =
        some [("acme_list_items", 1)] := by
    decide +kernel
  cases hResult : compile galleryEnvironment [conditionalList] with
  | error e =>
      rw [hResult] at hReferences
      contradiction
  | ok result =>
      rw [hResult] at hReferences
      have hEntries : result.parentReferences.map (fun entry => (entry.1, entry.2.length)) =
          [("acme_list_items", 1)] := Option.some.inj hReferences
      have hFirst : ("acme_list_items", 1) ∈
          result.parentReferences.map fun entry => (entry.1, entry.2.length) := by
        rw [hEntries]
        exact List.mem_singleton.mpr rfl
      obtain ⟨⟨table, fields⟩, hEntry, hMade⟩ := List.mem_map.mp hFirst
      obtain ⟨rfl, hLength⟩ := Prod.mk.inj hMade
      obtain ⟨field, rfl⟩ := List.length_eq_one_iff.mp hLength
      obtain ⟨pass, hPass, _, _, _, _, _, _, _, stored, hStored, hColumns, _⟩ :=
        stored_of_mem_parentReferences hResult hEntry (List.mem_singleton.mpr rfl)
      exact ⟨result, [field], field, rfl, hEntry, List.mem_singleton.mpr rfl, pass, hPass, stored,
        hStored, hColumns⟩

end ContentSchema
