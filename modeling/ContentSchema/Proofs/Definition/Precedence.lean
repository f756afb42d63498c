import ContentSchema.Definition.Merge
import ContentSchema.Proofs.Value.Merge

/-!
# Precedence among contributions

The merged definition of a table is told from the list of its contributions
alone, without any merge: which contribution decides a setting, in which order
fields and palettes stand, and how the configurations of one field are laid over
each other.

* `CompiledField.LaidOver` and `TableDefinition.LaidOver` state the rules.
* `LaidOver.merge` is one step: one more contribution on top.
* `laidOver_foldl` is the whole run over any number of contributions.

A list that is declared counts only if it is not empty, so an empty list does
NOT reset an earlier one.
-/

namespace ContentSchema

/-! ## Last declarations -/

/-- The last of several declarations that is made. -/
def lastDeclared {α : Type} (declared : List (Option α)) : Option α :=
  (declared.filterMap id).getLast?

/-- The last of several lists that is not empty; the empty list if all are. -/
def lastNonempty {α : Type} (lists : List (List α)) : List α :=
  (lists.filter fun list => !list.isEmpty).getLast?.getD []

@[simp] theorem lastDeclared_singleton {α : Type} (declared : Option α) :
    lastDeclared [declared] = declared := by
  cases declared <;> rfl

/-- One more thing may declare what the earlier ones have declared. -/
theorem lastDeclared_map_concat {α β : Type} {declared : Option β} {declare : α → Option β}
    {earlier : List α} (hEarlier : declared = lastDeclared (earlier.map declare)) (last : α) :
    (declare last <|> declared) = lastDeclared ((earlier ++ [last]).map declare) := by
  rw [hEarlier, List.map_append, List.map_singleton]
  cases hLast : declare last <;> simp [lastDeclared]

/-- What is declared last is declared later, or earlier if the later ones are
silent. -/
theorem lastDeclared_append {α : Type} (earlier later : List (Option α)) :
    lastDeclared (earlier ++ later) = (lastDeclared later).or (lastDeclared earlier) := by
  rw [lastDeclared, List.filterMap_append, List.getLast?_append]
  rfl

theorem lastDeclared_cons {α : Type} (first : Option α) (later : List (Option α)) :
    lastDeclared (first :: later) = (lastDeclared later).or first := by
  rw [← List.singleton_append, lastDeclared_append, lastDeclared_singleton]

@[simp] theorem lastNonempty_singleton {α : Type} (list : List α) :
    lastNonempty [list] = list := by
  cases list <;> rfl

/-- One more thing may list what the earlier ones have listed. -/
theorem lastNonempty_map_concat {α β : Type} {listed : List β} {list : α → List β}
    {earlier : List α} (hEarlier : listed = lastNonempty (earlier.map list)) (last : α) :
    laterUnlessEmpty listed (list last) = lastNonempty ((earlier ++ [last]).map list) := by
  rw [hEarlier, List.map_append, List.map_singleton]
  cases hLast : list last <;> simp [lastNonempty, laterUnlessEmpty]

/-- A declared value is one of the declarations. -/
theorem mem_of_lastDeclared {α : Type} {declared : List (Option α)} {value : α}
    (h : lastDeclared declared = some value) : some value ∈ declared := by
  simpa using List.mem_of_getLast? h

/-! ## Configurations -/

namespace Value

/-- A key that both sides have is found with the merged value, any other with its own. -/
theorem lookup_mergeEntries {overlay : Entries Value} (h : Entries.Distinct overlay)
    (base : Entries Value) (key : String) :
    (mergeEntries base overlay).lookup key =
      Option.merge merge (base.lookup key) (overlay.lookup key) := by
  rw [mergeEntries_eq_mergeWith]
  exact Entries.lookup_mergeWith h key

/-- What the overlay does not write is kept. -/
theorem lookup_mergeEntries_of_none {base overlay : Entries Value} {key : String}
    (h : overlay.lookup key = none) : (mergeEntries base overlay).lookup key = base.lookup key := by
  rw [mergeEntries_eq_mergeWith]
  exact Entries.lookup_updateAll_of_not_mem (Entries.lookup_eq_none_iff.mp h) base

/-- A text of the overlay replaces whatever was there. -/
theorem lookup_mergeEntries_of_text {base overlay : Entries Value}
    (hDistinct : Entries.Distinct overlay) {key text : String}
    (h : overlay.lookup key = some (.string text)) :
    (mergeEntries base overlay).lookup key = some (.string text) := by
  rw [lookup_mergeEntries hDistinct, h]
  cases base.lookup key with
  | none => rfl
  | some existing => exact congrArg some (merge_of_not_object (.inr rfl))

end Value

/-! ## One field -/

namespace CompiledField

/-- What `laid`, fields with one final identifier laid over each other in order,
amount to. -/
structure LaidOver (laid : List CompiledField) (field : CompiledField) : Prop where
  last : ∃ last, laid.getLast? = some last ∧
    field.uniqueIdentifier = last.uniqueIdentifier ∧ field.identifier = last.identifier ∧
    field.fieldType = last.fieldType ∧ field.labelPath = last.labelPath ∧
    field.useExistingField = last.useExistingField
  label : field.label = lastDeclared (laid.map CompiledField.label)
  description : field.description = lastDeclared (laid.map CompiledField.description)
  descriptionPath : field.descriptionPath = lastDeclared (laid.map CompiledField.descriptionPath)
  displayCond : field.displayCond = lastDeclared (laid.map CompiledField.displayCond)
  /-- The configurations are merged from the first to the last. -/
  config : ∃ first rest, laid = first :: rest ∧
    Value.object field.config =
      rest.foldl (fun config upper => config.merge (.object upper.config)) (.object first.config)

theorem laidOver_singleton (field : CompiledField) : LaidOver [field] field where
  last := ⟨field, rfl, rfl, rfl, rfl, rfl, rfl⟩
  label := by simp
  description := by simp
  descriptionPath := by simp
  displayCond := by simp
  config := ⟨field, [], rfl, rfl⟩

/-- One more field laid over the others. -/
theorem LaidOver.merge {laid : List CompiledField} {field : CompiledField}
    (h : LaidOver laid field) (upper : CompiledField) :
    LaidOver (laid ++ [upper]) (field.merge upper) where
  last := ⟨upper, List.getLast?_concat, rfl, rfl, rfl, rfl, rfl⟩
  label := lastDeclared_map_concat h.label upper
  description := lastDeclared_map_concat h.description upper
  descriptionPath := lastDeclared_map_concat h.descriptionPath upper
  displayCond := lastDeclared_map_concat h.displayCond upper
  config := by
    obtain ⟨first, rest, hLaid, hConfig⟩ := h.config
    refine ⟨first, rest ++ [upper], by rw [hLaid, List.cons_append], ?_⟩
    rw [List.foldl_append, ← hConfig]
    simp [CompiledField.merge, Value.merge]

/-- What configurations are merged to is made of their entries. -/
theorem foldl_merge_object (start : Entries Value) (rest : List CompiledField) :
    rest.foldl (fun config upper => config.merge (.object upper.config)) (Value.object start) =
      .object (rest.foldl (fun config upper => Value.mergeEntries config upper.config) start) := by
  induction rest generalizing start with
  | nil => rfl
  | cons upper rest ih =>
      rw [List.foldl_cons, List.foldl_cons, ← ih]
      simp [Value.merge]

/-- A text that is configured remains unless it is configured again on top of it. -/
theorem LaidOver.lookup_config {lower upper : List CompiledField} {one field : CompiledField}
    (h : LaidOver (lower ++ one :: upper) field) (hDistinct : Entries.Distinct one.config)
    {key text : String} (hText : one.config.lookup key = some (.string text))
    (hSilent : ∀ other ∈ upper, other.config.lookup key = none) :
    field.config.lookup key = some (.string text) := by
  have hKept (start : Entries Value) (hStart : start.lookup key = some (.string text)) :
      (upper.foldl (fun config upper => Value.mergeEntries config upper.config) start).lookup
        key = some (.string text) := by
    clear h
    induction upper generalizing start with
    | nil => exact hStart
    | cons other rest ih =>
        rw [List.forall_mem_cons] at hSilent
        refine ih hSilent.2 _ ?_
        rw [Value.lookup_mergeEntries_of_none hSilent.1, hStart]
  obtain ⟨first, rest, hSplit, hConfig⟩ := h.config
  rw [foldl_merge_object, Value.object.injEq] at hConfig
  rw [hConfig]
  cases lower with
  | nil =>
      obtain ⟨rfl, rfl⟩ := List.cons.inj hSplit
      exact hKept _ hText
  | cons lowest lower =>
      rw [List.cons_append] at hSplit
      obtain ⟨rfl, rfl⟩ := List.cons.inj hSplit
      rw [List.foldl_append, List.foldl_cons]
      exact hKept _ (Value.lookup_mergeEntries_of_text hDistinct hText)

/-- The field has one object with a single entry under the key. -/
def HasEntry (key : String) (one : CompiledField) (entry : String × Value) : Prop :=
  Entries.Distinct one.config ∧ one.config.lookup key = some (.object [entry])

/-- An object takes in the entries that are laid over it one by one, at its end and in
order, where all names are different. -/
theorem lookup_foldl_mergeEntries {key : String} {rest : List CompiledField}
    {more : Entries Value} (hRest : List.Forall₂ (HasEntry key) rest more)
    {start before : Entries Value} (hStart : start.lookup key = some (.object before))
    (hDistinct : Entries.Distinct (before ++ more)) :
    (rest.foldl (fun config upper => Value.mergeEntries config upper.config) start).lookup key =
      some (.object (before ++ more)) := by
  induction hRest generalizing start before with
  | nil => rw [List.append_nil, List.foldl_nil, hStart]
  | @cons one entry rest more hHere _ ih =>
      have hNew := Entries.not_mem_keys_of_distinct_append hDistinct
      have hMoved : before ++ entry :: more = (before ++ [entry]) ++ more := by simp
      rw [hMoved] at hDistinct ⊢
      refine ih ?_ hDistinct
      rw [Value.lookup_mergeEntries hHere.1, hStart, hHere.2]
      show some (Value.merge _ _) = _
      rw [Value.merge_object, Entries.mergeWith_singleton hNew]

/-- Objects with one entry each, all under different names, are merged into one object
with these entries in order. -/
theorem LaidOver.lookup_entries {laid : List CompiledField} {field : CompiledField}
    (h : LaidOver laid field) {key : String} {entries : Entries Value}
    (hEach : List.Forall₂ (HasEntry key) laid entries) (hDistinct : Entries.Distinct entries) :
    field.config.lookup key = some (.object entries) := by
  obtain ⟨first, rest, rfl, hConfig⟩ := h.config
  rw [foldl_merge_object, Value.object.injEq] at hConfig
  rw [hConfig]
  cases hEach with
  | @cons _ entry _ more hFirst hRest =>
      rw [← List.singleton_append] at hDistinct ⊢
      exact lookup_foldl_mergeEntries hRest hFirst.2 hDistinct

end CompiledField

/-! ## Fields laid over fields -/

theorem mergeFields_eq_mergeWith (base overlay : Entries CompiledField) :
    mergeFields base overlay = Entries.mergeWith CompiledField.merge base overlay := by
  rw [mergeFields, Entries.mergeWith, Entries.updateAll]
  congr 1
  funext fields entry
  congr 1
  funext present
  cases present <;> rfl

theorem keys_mergeFields {base overlay : Entries CompiledField} (h : Entries.Distinct base) :
    Entries.keys (mergeFields base overlay) =
      (Entries.keys base ++ Entries.keys overlay).eraseDups := by
  rw [mergeFields_eq_mergeWith, Entries.keys_mergeWith_eq_eraseDups h]

/-- A field that both sides have is merged, any other is taken over. -/
theorem lookup_mergeFields {overlay : Entries CompiledField} (h : Entries.Distinct overlay)
    (base : Entries CompiledField) (key : String) :
    (mergeFields base overlay).lookup key =
      Option.merge CompiledField.merge (base.lookup key) (overlay.lookup key) := by
  rw [mergeFields_eq_mergeWith, Entries.lookup_mergeWith h]

/-! ## One table -/

namespace TableDefinition

/-- No field and no palette is listed twice. -/
structure Distinct (definition : TableDefinition) : Prop where
  fields : Entries.Distinct definition.fields
  palettes : Entries.Distinct definition.palettes

/-- The fields that several definitions list under one final identifier. -/
def fieldsUnder (definitions : List TableDefinition) (key : String) : List CompiledField :=
  definitions.filterMap fun definition => definition.fields.lookup key

theorem fieldsUnder_append_singleton (definitions : List TableDefinition)
    (last : TableDefinition) (key : String) :
    fieldsUnder (definitions ++ [last]) key =
      fieldsUnder definitions key ++ (last.fields.lookup key).toList := by
  simp only [fieldsUnder, List.filterMap_append]
  cases h : last.fields.lookup key <;> simp [h]

/-- What `laid`, definitions of one table laid over each other in order, amount
to.  Content types are not merged and have no part in it. -/
structure LaidOver (laid : List TableDefinition) (merged : TableDefinition) : Prop where
  table : ∃ first, laid.head? = some first ∧ merged.table = first.table
  isRootTable : merged.isRootTable = true ↔ ∃ definition ∈ laid, definition.isRootTable = true
  typeField : merged.typeField = lastDeclared (laid.map TableDefinition.typeField)
  aggregateRoot : merged.aggregateRoot = lastDeclared (laid.map TableDefinition.aggregateRoot)
  rootLevelType : merged.rootLevelType = lastDeclared (laid.map TableDefinition.rootLevelType)
  appendLabel : merged.appendLabel = lastDeclared (laid.map TableDefinition.appendLabel)
  capabilities : ∀ capability, merged.capabilities.declared capability =
    lastDeclared (laid.map fun definition => definition.capabilities.declared capability)
  labelField : merged.labelField = lastNonempty (laid.map TableDefinition.labelField)
  fallbackLabelFields : merged.fallbackLabelFields =
    lastNonempty (laid.map TableDefinition.fallbackLabelFields)
  sortFields : merged.sortFields = lastNonempty (laid.map TableDefinition.sortFields)
  /-- Fields stand in the order in which they first occur. -/
  fieldNames : Entries.keys merged.fields =
    (laid.flatMap fun definition => Entries.keys definition.fields).eraseDups
  field : ∀ key field, merged.field? key = some field →
    CompiledField.LaidOver (fieldsUnder laid key) field
  /-- Palettes stand in the order in which they first occur. -/
  paletteNames : Entries.keys merged.palettes =
    (laid.flatMap fun definition => Entries.keys definition.palettes).eraseDups
  palette : ∀ key, merged.palettes.lookup key =
    lastDeclared (laid.map fun definition => definition.palettes.lookup key)

/-- The merged definition lists nothing twice. -/
theorem LaidOver.distinct {laid : List TableDefinition} {merged : TableDefinition}
    (h : LaidOver laid merged) : merged.Distinct where
  fields := by
    rw [Entries.Distinct, h.fieldNames]
    exact Entries.nodup_eraseDups _
  palettes := by
    rw [Entries.Distinct, h.paletteNames]
    exact Entries.nodup_eraseDups _

theorem laidOver_singleton {definition : TableDefinition} (h : definition.Distinct) :
    LaidOver [definition] definition where
  table := ⟨definition, rfl, rfl⟩
  isRootTable := by simp
  typeField := by simp
  aggregateRoot := by simp
  rootLevelType := by simp
  appendLabel := by simp
  capabilities := by simp
  labelField := by simp
  fallbackLabelFields := by simp
  sortFields := by simp
  fieldNames := by simpa using (Entries.eraseDups_eq_self h.fields).symm
  field := by
    intro key field hField
    have hLookup : definition.fields.lookup key = some field := hField
    have hUnder : fieldsUnder [definition] key = [field] := by
      rw [fieldsUnder, List.filterMap_cons, hLookup, List.filterMap_nil]
    rw [hUnder]
    exact CompiledField.laidOver_singleton field
  paletteNames := by simpa using (Entries.eraseDups_eq_self h.palettes).symm
  palette := by simp

/-- The names of some lists in order of first occurrence, with one list more. -/
private theorem eraseDups_flatMap_append_singleton (names : TableDefinition → List String)
    (laid : List TableDefinition) (upper : TableDefinition) :
    ((laid ++ [upper]).flatMap names).eraseDups =
      ((laid.flatMap names).eraseDups ++ names upper).eraseDups := by
  rw [List.flatMap_append, List.flatMap_singleton, List.eraseDups_append,
    List.eraseDups_append, Entries.eraseDups_eq_self (Entries.nodup_eraseDups _)]
  congr 2
  simp [List.removeAll]

/-- A field that the merged definition does not have is in none of the others. -/
theorem LaidOver.fieldsUnder_eq_nil {laid : List TableDefinition} {merged : TableDefinition}
    (h : LaidOver laid merged) {key : String} (hNone : merged.fields.lookup key = none) :
    fieldsUnder laid key = [] := by
  rw [fieldsUnder, List.filterMap_eq_nil_iff]
  intro definition hMem
  rw [Entries.lookup_eq_none_iff] at hNone ⊢
  intro hKey
  apply hNone
  rw [h.fieldNames, List.mem_eraseDups, List.mem_flatMap]
  exact ⟨definition, hMem, hKey⟩

/-- A field of one more definition is laid over the others of its identifier, or starts. -/
theorem LaidOver.field_merge {laid : List TableDefinition} {base : TableDefinition}
    (h : LaidOver laid base) {upper : TableDefinition} (hUpper : upper.Distinct) {key : String}
    {field : CompiledField} (hField : (base.merge upper).field? key = some field) :
    CompiledField.LaidOver (fieldsUnder (laid ++ [upper]) key) field := by
  have hMerged : Option.merge CompiledField.merge (base.fields.lookup key)
      (upper.fields.lookup key) = some field := by
    rw [← lookup_mergeFields hUpper.fields]
    exact hField
  rw [fieldsUnder_append_singleton]
  cases hBase : base.fields.lookup key with
  | none =>
      rw [hBase, Option.merge_none_left] at hMerged
      rw [h.fieldsUnder_eq_nil hBase, hMerged]
      exact CompiledField.laidOver_singleton field
  | some existing =>
      have hExisting := h.field key existing hBase
      rw [hBase] at hMerged
      cases hLast : upper.fields.lookup key with
      | none =>
          rw [hLast, Option.merge_none_right, Option.some.injEq] at hMerged
          simpa [← hMerged] using hExisting
      | some last =>
          have hSame : existing.merge last = field := by
            simpa [hLast, Option.merge] using hMerged
          rw [← hSame]
          exact hExisting.merge last

/-- One more definition laid over the others. -/
theorem LaidOver.merge {laid : List TableDefinition} {base : TableDefinition}
    (h : LaidOver laid base) {upper : TableDefinition} (hUpper : upper.Distinct) :
    LaidOver (laid ++ [upper]) (base.merge upper) where
  table := by
    obtain ⟨first, hFirst, hTable⟩ := h.table
    refine ⟨first, ?_, hTable⟩
    rw [List.head?_append, hFirst]
    rfl
  isRootTable := by
    simp only [TableDefinition.merge, Bool.or_eq_true, h.isRootTable, List.mem_append,
      List.mem_singleton]
    constructor
    · rintro (⟨definition, hMem, hRoot⟩ | hRoot)
      · exact ⟨definition, Or.inl hMem, hRoot⟩
      · exact ⟨upper, Or.inr rfl, hRoot⟩
    · rintro ⟨definition, hMem | rfl, hRoot⟩
      · exact Or.inl ⟨definition, hMem, hRoot⟩
      · exact Or.inr hRoot
  typeField := lastDeclared_map_concat h.typeField upper
  aggregateRoot := lastDeclared_map_concat h.aggregateRoot upper
  rootLevelType := lastDeclared_map_concat h.rootLevelType upper
  appendLabel := lastDeclared_map_concat h.appendLabel upper
  capabilities := fun capability => lastDeclared_map_concat (h.capabilities capability) upper
  labelField := lastNonempty_map_concat h.labelField upper
  fallbackLabelFields := lastNonempty_map_concat h.fallbackLabelFields upper
  sortFields := lastNonempty_map_concat h.sortFields upper
  fieldNames := by
    rw [eraseDups_flatMap_append_singleton, ← h.fieldNames]
    exact keys_mergeFields h.distinct.fields
  field := fun _ _ hField => h.field_merge hUpper hField
  paletteNames := by
    rw [eraseDups_flatMap_append_singleton, ← h.paletteNames]
    exact Entries.keys_insertAll h.distinct.palettes
  palette := by
    intro key
    rw [← lastDeclared_map_concat (h.palette key) upper]
    have hLookup := Entries.lookup_insertAll_of_distinct hUpper.palettes base.palettes key
    cases hLast : upper.palettes.lookup key <;> simpa [TableDefinition.merge, hLast] using hLookup

/-- Any number of definitions laid over each other. -/
theorem laidOver_foldl {laid rest : List TableDefinition} {base : TableDefinition}
    (hBase : LaidOver laid base) (hRest : ∀ definition ∈ rest, definition.Distinct) :
    LaidOver (laid ++ rest) (rest.foldl TableDefinition.merge base) := by
  induction rest generalizing laid base with
  | nil => simpa using hBase
  | cons upper rest ih =>
      have hStep := hBase.merge (hRest upper List.mem_cons_self)
      have hRun := ih hStep fun definition hMem => hRest definition (List.mem_cons_of_mem _ hMem)
      rwa [List.append_assoc] at hRun

/-- Content types have no part in the rules. -/
theorem LaidOver.withContentTypes {laid : List TableDefinition} {merged : TableDefinition}
    (h : LaidOver laid merged) (contentTypes : List ContentType) :
    LaidOver laid { merged with contentTypes } :=
  ⟨h.table, h.isRootTable, h.typeField, h.aggregateRoot, h.rootLevelType, h.appendLabel,
    h.capabilities, h.labelField, h.fallbackLabelFields, h.sortFields, h.fieldNames, h.field,
    h.paletteNames, h.palette⟩

end TableDefinition

/-! ## All contributions -/

namespace Contributions

/-- No contributed definition lists anything twice. -/
def Distinct (contributions : Contributions) : Prop :=
  ∀ definition ∈ contributions.tables, definition.Distinct

/-- Exactly the tables with a contributed definition have a merged one. -/
theorem isSome_merged?_iff (contributions : Contributions) :
    contributions.merged?.isSome = true ↔ contributions.tables ≠ [] := by
  unfold merged?
  cases contributions.tables <;> simp

/-- The merged definition follows the rules and lists the content types as
contributed. -/
theorem laidOver_of_merged? {contributions : Contributions} {merged : TableDefinition}
    (h : contributions.merged? = some merged) (hDistinct : contributions.Distinct) :
    TableDefinition.LaidOver contributions.tables merged ∧
      merged.contentTypes = contributions.contentTypes := by
  unfold merged? at h
  cases hTables : contributions.tables with
  | nil => simp [hTables] at h
  | cons first rest =>
      rw [hTables, Option.some.injEq] at h
      have hFirst : first.Distinct := hDistinct first (by simp [hTables])
      have hRest : ∀ definition ∈ rest, definition.Distinct := fun definition hMem =>
        hDistinct definition (by simp [hTables, hMem])
      have hRun := TableDefinition.laidOver_foldl (TableDefinition.laidOver_singleton hFirst) hRest
      rw [← h]
      exact ⟨hRun.withContentTypes contributions.contentTypes, rfl⟩

/-- Content types are contributed together with definitions, and the merged one
lists them all. -/
theorem getD_contentTypes_merged? {contributions : Contributions}
    (h : contributions.contentTypes.length = contributions.tables.length) :
    (contributions.merged?.map TableDefinition.contentTypes).getD [] =
      contributions.contentTypes := by
  unfold merged?
  cases hTables : contributions.tables with
  | cons first rest => rfl
  | nil =>
      rw [hTables] at h
      exact (List.eq_nil_of_length_eq_zero h).symm

end Contributions

/-- What is merged is merged from the contributions under its name. -/
theorem mem_mergeTables_iff {contributions : Entries Contributions} {table : String}
    {merged : TableDefinition} :
    (table, merged) ∈ mergeTables contributions ↔
      ∃ contributed, (table, contributed) ∈ contributions ∧ contributed.merged? = some merged := by
  rw [mergeTables, List.mem_filterMap]
  constructor
  · rintro ⟨⟨name, contributed⟩, hMem, hMade⟩
    obtain ⟨other, hOther, hSame⟩ := Option.map_eq_some_iff.mp hMade
    cases hSame
    exact ⟨contributed, hMem, hOther⟩
  · rintro ⟨contributed, hMem, hMerged⟩
    exact ⟨(table, contributed), hMem, by rw [hMerged]; rfl⟩

/-- A table without contributions has no merged definition. -/
theorem lookup_mergeTables_of_none {contributions : Entries Contributions} {table : String}
    (h : contributions.lookup table = none) : (mergeTables contributions).lookup table = none := by
  rw [List.lookup_eq_none_iff] at h ⊢
  rintro ⟨name, merged⟩ hMem
  obtain ⟨contributed, hContributed, _⟩ := mem_mergeTables_iff.mp hMem
  exact h (name, contributed) hContributed

/-- The merged definition of a table is that of its own contributions. -/
theorem lookup_mergeTables {contributions : Entries Contributions} {table : String}
    {contributed : Contributions} (hTable : contributions.lookup table = some contributed)
    (hSome : contributed.tables ≠ []) :
    (mergeTables contributions).lookup table = contributed.merged? := by
  obtain ⟨merged, hMerged⟩ :=
    Option.isSome_iff_exists.mp ((Contributions.isSome_merged?_iff contributed).mpr hSome)
  obtain ⟨before, after, rfl, hBefore⟩ := List.lookup_eq_some_iff.mp hTable
  have hNone : (mergeTables before).lookup table = none :=
    lookup_mergeTables_of_none (List.lookup_eq_none_iff.mpr hBefore)
  have hSplit : mergeTables (before ++ (table, contributed) :: after) =
      mergeTables before ++ (table, merged) :: mergeTables after := by
    simp [mergeTables, hMerged]
  rw [hSplit, List.lookup_append, hNone, Option.none_or, List.lookup_cons_self, hMerged]

/-- Where nothing is contributed twice under one name, a table has the merged
definition of what is contributed to it and no other. -/
theorem lookup_mergeTables_of_distinct {contributions : Entries Contributions}
    (h : Entries.Distinct contributions) (table : String) :
    (mergeTables contributions).lookup table =
      (contributions.lookup table).bind Contributions.merged? := by
  cases hLookup : contributions.lookup table with
  | none => exact lookup_mergeTables_of_none hLookup
  | some contributed =>
      rw [Option.bind_some]
      cases hMerged : contributed.merged? with
      | some merged =>
          have hSome : contributed.tables ≠ [] := by
            rw [← Contributions.isSome_merged?_iff, hMerged]
            rfl
          rw [lookup_mergeTables hLookup hSome, hMerged]
      | none =>
          -- Were the table listed, it would be so with the same contributions.
          rw [List.lookup_eq_none_iff]
          rintro ⟨name, merged⟩ hMem
          obtain ⟨other, hOther, hMade⟩ := mem_mergeTables_iff.mp hMem
          rw [bne_iff_ne]
          rintro rfl
          rw [Entries.mem_iff_lookup h, hLookup] at hOther
          obtain rfl := Option.some.inj hOther
          rw [hMerged] at hMade
          contradiction

/-- Tables keep their order, and those without a contributed definition are left
out. -/
theorem keys_mergeTables (contributions : Entries Contributions) :
    Entries.keys (mergeTables contributions) =
      Entries.keys (contributions.filter fun entry => !entry.2.tables.isEmpty) := by
  induction contributions with
  | nil => rfl
  | cons entry rest ih =>
      obtain ⟨name, contributed⟩ := entry
      cases hTables : contributed.tables <;>
        simpa [mergeTables, Contributions.merged?, hTables, Entries.keys] using ih

/-- **Precedence.**  For any contributions to any number of tables, a table with
at least one contributed definition has a merged one that follows the rules, and
its content types are the contributed ones in order. -/
theorem exists_lookup_mergeTables {contributions : Entries Contributions} {table : String}
    {contributed : Contributions} (hTable : contributions.lookup table = some contributed)
    (hSome : contributed.tables ≠ []) (hDistinct : contributed.Distinct) :
    ∃ merged, (mergeTables contributions).lookup table = some merged ∧
      TableDefinition.LaidOver contributed.tables merged ∧
      merged.contentTypes = contributed.contentTypes ∧
      Entries.keys (mergeTables contributions) =
        Entries.keys (contributions.filter fun entry => !entry.2.tables.isEmpty) := by
  obtain ⟨merged, hMerged⟩ :=
    Option.isSome_iff_exists.mp ((Contributions.isSome_merged?_iff contributed).mpr hSome)
  obtain ⟨hLaid, hContent⟩ := Contributions.laidOver_of_merged? hMerged hDistinct
  refine ⟨merged, ?_, hLaid, hContent, keys_mergeTables contributions⟩
  rw [lookup_mergeTables hTable hSome, hMerged]

/-- A text column with the given configuration. -/
def newsColumn (identifier : String) (label : Option String) (config : Entries Value) :
    CompiledField where
  uniqueIdentifier := identifier
  identifier := identifier
  fieldType := { name := "Text", storage := .input }
  label := label
  labelPath := "LLL:news:" ++ identifier ++ ".label"
  useExistingField := false
  config := config

/-- Three contributions to one table, of which the second is silent on most
settings and the third repeats a column of the first. -/
def newsContributions : Entries Contributions :=
  [ ("tx_empty", {}),
    ("tx_news",
      { tables :=
          [ { table := "tx_news", isRootTable := false, typeField := some "kind",
              labelField := ["title"],
              fields :=
                [ ("title", newsColumn "title" (some "Title")
                    [("size", .int 20), ("eval", .object [("trim", .bool true)])]),
                  ("teaser", newsColumn "teaser" none []) ] },
            { table := "tx_news", isRootTable := true, aggregateRoot := some true },
            { table := "tx_news", isRootTable := false, aggregateRoot := some false,
              fields :=
                [ ("date", newsColumn "date" none []),
                  ("title", newsColumn "title" none
                    [("eval", .object [("required", .bool true)])]) ] } ] }) ]

/-- The rules at work: the last declarations count, silent contributions reset
nothing, and the repeated column keeps its place. -/
theorem exists_lookup_mergeTables_news :
    ∃ merged, (mergeTables newsContributions).lookup "tx_news" = some merged ∧
      merged.isRootTable = true ∧ merged.typeField = some "kind" ∧
      merged.aggregateRoot = some false ∧ merged.labelField = ["title"] ∧
      Entries.keys merged.fields = ["title", "teaser", "date"] ∧
      Entries.keys (mergeTables newsContributions) = ["tx_news"] := by
  have hTable : newsContributions.lookup "tx_news" = some _ := rfl
  obtain ⟨merged, hMerged, hLaid, -, hKeys⟩ :=
    exists_lookup_mergeTables hTable (List.cons_ne_nil _ _)
      (by
        intro definition hMem
        simp only [List.mem_cons, List.not_mem_nil, or_false] at hMem
        rcases hMem with rfl | rfl | rfl <;> exact ⟨by decide, by decide⟩)
  refine ⟨merged, hMerged, ?_, hLaid.typeField, hLaid.aggregateRoot, hLaid.labelField, ?_,
    hKeys⟩
  · rw [hLaid.isRootTable]
    simp
  · rw [hLaid.fieldNames]
    decide

end ContentSchema
