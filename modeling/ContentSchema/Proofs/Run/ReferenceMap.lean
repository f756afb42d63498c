import ContentSchema.Proofs.Run.ChildTables
import ContentSchema.Proofs.Run.Collections
import ContentSchema.Proofs.Run.Listings

/-!
# The map of parent references

Every collection of a run is listed once under the table that it refers to, with
or without nested nodes, and nothing else is listed.  What the author wrote into
the configuration of the field does not count: the two entries that link it are
written over it.

* `CollectionField.ListedAs` says what is listed for a collection.
* `listed_of_compile` matches what is listed under a table with the collections
  that refer to it.
* `refersExactly_of_compile` says it of the whole map.

The order is that of the documents, NOT that of the passes: a collection is
listed before those inside it, although its own pass finishes after theirs.
-/

namespace ContentSchema

namespace PassContext

variable {context : PassContext} {path : LanguagePath} {node : FieldNode}

/-- A collection is compiled with the two entries that link it, whatever was
authored. -/
theorem lookup_link_compiledField {type : TypeDescriptor} {unique : String}
    (hInline : type.storage = .inline) :
    (context.compiledField path type node unique).config.lookup "foreign_table" =
        some (.string (node.table.getD unique)) ∧
      (context.compiledField path type node unique).config.lookup "foreign_field" =
        some (.string (node.foreignField.getD defaultForeignField)) := by
  have hDistinct : Entries.Distinct (linkConfig node (node.table.getD unique) unique) := by
    unfold linkConfig Entries.Distinct
    cases node.shareAcrossTables <;> cases node.shareAcrossFields <;> simp [Entries.keys]
  rw [compiledField, if_pos hInline, linked]
  show (Entries.insertAll _ (linkConfig node (node.table.getD unique) unique)).lookup _ = _ ∧
    (Entries.insertAll _ (linkConfig node (node.table.getD unique) unique)).lookup _ = _
  rw [Entries.lookup_insertAll_of_distinct hDistinct,
    Entries.lookup_insertAll_of_distinct hDistinct]
  exact ⟨rfl, rfl⟩

end PassContext

namespace CollectionField

/-- The field is what the map of parent references lists for the collection. -/
structure ListedAs (collection : CollectionField) (field : CompiledField) : Prop where
  uniqueIdentifier : field.uniqueIdentifier = collection.name
  identifier : field.identifier = collection.node.identifierText
  storage : field.fieldType.storage = .inline
  foreignTable : field.config.lookup "foreign_table" = some (.string collection.childTable)
  foreignField : field.config.lookup "foreign_field" = some (.string collection.foreignField)

variable {collection : CollectionField} {reference : String × CompiledField}

/-- A collection is listed under the table that it refers to. -/
theorem Refers.listedAs (hRefers : collection.Refers reference) :
    reference.1 = collection.childTable ∧ collection.ListedAs reference.2 := by
  obtain ⟨path, hReference⟩ := hRefers
  unfold PassContext.reference? at hReference
  split at hReference
  case h_2 => contradiction
  case h_1 type hType =>
    split at hReference
    case isFalse => contradiction
    case isTrue hInline =>
      cases hReference
      obtain ⟨config, hConfig⟩ := PassContext.exists_compiledField_eq collection.context path type
        collection.node (collection.context.fieldName collection.node)
      have hStorage : (collection.context.compiledField path type collection.node
          (collection.context.fieldName collection.node)).fieldType.storage = .inline := by
        rw [hConfig]
        exact hInline
      obtain ⟨hTable, hField⟩ := PassContext.lookup_link_compiledField hInline
      exact ⟨rfl, PassContext.compiledField_uniqueIdentifier _ _,
        PassContext.compiledField_identifier _ _, hStorage, hTable, hField⟩

end CollectionField

section Map

variable {environment : Environment} {documents : List SchemaDocument} {result : CompiledResult}

/-- What is listed under a table are the collections that refer to it, in order. -/
theorem listed_of_compile (hResult : compile environment documents = .ok result)
    (table : String) :
    List.Forall₂ CollectionField.ListedAs
      ((runCollections environment documents).filter fun collection =>
        collection.childTable = table)
      (result.referencesTo table) := by
  obtain ⟨hRun, _⟩ := compile_eq_ok_iff.mp hResult
  -- A collection and the reference to it are kept for the same table.
  have hAlike : ∀ collection reference, CollectionField.Refers collection reference →
      (decide (collection.childTable = table) = true ↔ decide (reference.1 = table) = true) := by
    intro collection reference hRefers
    rw [hRefers.listedAs.1]
  have hKept := List.rel_filter (fun collection reference => hAlike collection reference)
    (references_runCollections hRun)
  rw [referencesTo_of_compile hResult, List.forall₂_map_right_iff]
  exact hKept.imp fun _ _ hRefers => hRefers.listedAs.2

/-- The tables with references are those that collections refer to, in the order
in which the first of them does. -/
theorem keys_parentReferences (hResult : compile environment documents = .ok result) :
    Entries.keys result.parentReferences =
      ((runCollections environment documents).map CollectionField.childTable).eraseDups := by
  obtain ⟨hRun, rfl⟩ := compile_eq_ok_iff.mp hResult
  have hTables : (runWalk environment documents).emission.references.map Prod.fst =
      (runCollections environment documents).map CollectionField.childTable := by
    refine (Pass.map_eq_map_of_forall₂ ?_ (references_runCollections hRun)).symm
    exact fun _ _ hRefers => hRefers.listedAs.1.symm
  show Entries.keys (Entries.updateAll Prod.fst
    (fun entry present => present.getD [] ++ [entry.2])
    (runWalk environment documents).emission.references ([] : Entries (List CompiledField))) = _
  rw [Entries.keys_updateAll Entries.distinct_nil, hTables]
  rfl

/-- The map of parent references is complete and exact: under each table it lists
the collections that refer to it, once each and in order, with the entries that
link them, and it has a table exactly if there is one. -/
structure CompiledResult.RefersExactly (result : CompiledResult)
    (collections : List CollectionField) : Prop where
  names : ∀ table, (result.referencesTo table).map CompiledField.uniqueIdentifier =
    (collections.filter fun collection => collection.childTable = table).map CollectionField.name
  listed : ∀ table, List.Forall₂ CollectionField.ListedAs
    (collections.filter fun collection => collection.childTable = table)
    (result.referencesTo table)
  present : ∀ table, (∃ fields, (table, fields) ∈ result.parentReferences) ↔
    ∃ collection ∈ collections, collection.childTable = table
  distinct : Entries.Distinct result.parentReferences

/-- The collections that a result refers to are those of its run, and these are
the fields of its passes that are stored inline. -/
theorem refersExactly_of_compile (hResult : compile environment documents = .ok result) :
    result.RefersExactly (runCollections environment documents) ∧
      ∀ collection, collection ∈ runCollections environment documents ↔
        ∃ pass ∈ (runWalk environment documents).emission.passes,
          collection.context = pass.context ∧ collection.node ∈ pass.site.fields ∧
            pass.context.storageOf? collection.node = some .inline := by
  obtain ⟨hRun, _⟩ := compile_eq_ok_iff.mp hResult
  have hKeys := keys_parentReferences hResult
  refine ⟨⟨?_, listed_of_compile hResult, ?_, ?_⟩, fun _ => mem_runCollections_iff hRun⟩
  · intro table
    refine (Pass.map_eq_map_of_forall₂ ?_ (listed_of_compile hResult table)).symm
    exact fun _ _ hListed => hListed.uniqueIdentifier.symm
  · intro table
    have hEntry : (∃ fields, (table, fields) ∈ result.parentReferences) ↔
        table ∈ Entries.keys result.parentReferences := by
      simp [Entries.keys]
    rw [hEntry, hKeys, List.mem_eraseDups, List.mem_map]
  · rw [Entries.Distinct, hKeys]
    exact Entries.nodup_eraseDups _

end Map

/-- A document with a collection inside another one, and one in a palette that
refers to a table of its own choice and pretends to be linked elsewhere. -/
def linkBoard : SchemaDocument where
  name := "acme/board"
  fields :=
    [ { FieldNode.ofType "media" "Palette" with
        fields := [
          { FieldNode.ofType "files" "Collection" with
            table := some "shared_files"
            foreignField := some "board"
            config := [("foreign_table", .string "elsewhere")] },
          .linebreak] },
      { FieldNode.ofType "columns" "Collection" with
        fields := [
          { FieldNode.ofType "links" "Collection" with fields := [.ofType "url" "Text"] }] } ]

/-- The rule for two documents that share one child table. -/
theorem refersExactly_of_compile_linkBoard :
    ∃ result, compile galleryEnvironment [linkLists, linkBoard] = .ok result ∧
      (runCollections galleryEnvironment [linkLists, linkBoard]).map
          (fun collection => (collection.name, collection.childTable)) =
        [("acme_list_left", "acme_list_left"), ("links", "links"),
          ("acme_list_right", "acme_list_right"), ("links", "links"),
          ("acme_board_files", "shared_files"), ("acme_board_columns", "acme_board_columns"),
          ("links", "links")] ∧
      result.RefersExactly (runCollections galleryEnvironment [linkLists, linkBoard]) := by
  have hSome : (compile galleryEnvironment [linkLists, linkBoard]).toOption.isSome = true := by
    decide +kernel
  obtain ⟨result, hResult⟩ := exists_eq_ok_of_isSome hSome
  exact ⟨result, hResult, by decide +kernel, (refersExactly_of_compile hResult).1⟩

end ContentSchema
