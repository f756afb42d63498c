import ContentSchema.Proofs.Run.Sites

/-!
# Content types by name

Every document has a pass of its own, whose content type describes the document
and is identified by its name.  A nested pass describes a collection: it has no
discriminator value, and the identifier of its content type is made up from its
table.  A nested pass that writes the table of its document counts as one over
that table, though, and its content type then goes by the name of the document
as well, ahead of the one that describes it.

* `ContentType.Describes` says what the content type of a document tells.
* `contentType?_eq_find?` says what is found under an identifier.
* `foundByName_of_compile` says when the name of a document leads to its own
  content type.

Collections of one document may share a table, so identifiers of their content
types need NOT differ.
-/

namespace ContentSchema

/-- The content type tells what the document says of itself. -/
structure ContentType.Describes (contentType : ContentType) (document : SchemaDocument) :
    Prop where
  identifier : contentType.identifier = document.name
  kind : contentType.kind = document.kind
  typeName : ∃ typeName, document.resolvedTypeName = .ok typeName ∧
    Text.isBlank typeName = false ∧ contentType.typeName = some typeName
  title : contentType.title = some (document.title.getD document.displayName)

/-! ## Discriminator values -/

/-- A text with an underscore in it is not blank. -/
theorem isBlank_append_underscore (before after : String) :
    Text.isBlank (before ++ "_" ++ after) = false := by
  unfold Text.isBlank
  rw [List.all_eq_false]
  refine ⟨'_', ?_, by decide⟩
  simp

theorem SchemaDocument.isBlank_of_joinedName {document : SchemaDocument} {typeName : String}
    (hJoined : document.joinedName = .ok typeName) : Text.isBlank typeName = false := by
  unfold joinedName at hJoined
  obtain ⟨parts, _, hMade⟩ := bind_eq_ok_iff.mp hJoined
  cases hMade
  exact isBlank_append_underscore _ _

/-- A discriminator value is never blank, authored or made up. -/
theorem SchemaDocument.isBlank_of_resolvedTypeName {document : SchemaDocument} {typeName : String}
    (hTypeName : document.resolvedTypeName = .ok typeName) : Text.isBlank typeName = false := by
  unfold resolvedTypeName at hTypeName
  split at hTypeName
  case h_1 authored _ =>
    split at hTypeName
    case isTrue => contradiction
    case isFalse hBlank =>
      cases hTypeName
      simpa using hBlank
  case h_2 =>
    split at hTypeName
    case h_1 => exact isBlank_of_joinedName hTypeName
    case h_2 =>
      split at hTypeName
      case isTrue => exact isBlank_of_joinedName hTypeName
      case isFalse =>
        cases hTypeName
        decide
    case h_3 => contradiction
    case h_4 => contradiction

/-! ## Identifiers -/

/-- A qualified name has exactly one slash. -/
theorem count_slash_of_splitQualifiedName {name : String} {parts : String × String}
    (hParts : splitQualifiedName name = .ok parts) : name.toList.count '/' = 1 := by
  unfold splitQualifiedName splitQualifiedName? at hParts
  cases hCut : Text.cut '/' name with
  | none => simp [hCut] at hParts
  | some cut =>
      obtain ⟨⟨before, after⟩, hChars, rfl⟩ := Option.map_eq_some_iff.mp hCut
      obtain ⟨hName, hBefore⟩ := Text.cutChars_eq_some_iff.mp hChars
      have hAfter : '/' ∉ after := by
        intro hMem
        simp [hCut, hMem] at hParts
      rw [hName, List.count_append, List.count_cons_self, List.count_eq_zero_of_not_mem hBefore,
        List.count_eq_zero_of_not_mem hAfter]

/-- A made up identifier is never the name of a document. -/
theorem append_slash_ne_name {owner name : String} {ownerParts parts : String × String}
    (hOwner : splitQualifiedName owner = .ok ownerParts)
    (hName : splitQualifiedName name = .ok parts) (table : String) :
    owner ++ "/" ++ table ≠ name := by
  intro hSame
  have hOne := count_slash_of_splitQualifiedName hName
  have hOwnerOne := count_slash_of_splitQualifiedName hOwner
  -- The made up identifier has a slash more than the name that it starts with.
  rw [← hSame, String.toList_append, String.toList_append, List.count_append, List.count_append,
    hOwnerOne] at hOne
  have hSlash : "/".toList.count '/' = 1 := by decide
  omega

namespace Pass

variable {pass : Pass}

/-- What the content type of a pass tells, its title and its display apart. -/
theorem Compiled.contentType_tells (hPass : pass.Compiled) :
    (pass.contentType.identifier =
      if pass.context.isRootTable then pass.context.document.name
      else pass.context.document.name ++ "/" ++ pass.context.table) ∧
      pass.contentType.kind = pass.context.kind ∧
      pass.contentType.typeName = pass.context.typeName := by
  obtain ⟨contentType, hType, hMade⟩ := hPass.contentType_eq
  obtain ⟨_, _, hType⟩ := bind_eq_ok_iff.mp hType
  cases hType
  rw [hMade]
  unfold shownType PassContext.titledType
  split <;> exact ⟨rfl, rfl, rfl⟩

theorem Compiled.contentType_title (hPass : pass.Compiled)
    (hRoot : pass.context.isRootTable = true) :
    pass.contentType.title = some pass.context.displayTitle := by
  obtain ⟨contentType, _, hMade⟩ := hPass.contentType_eq
  rw [hMade]
  unfold shownType PassContext.titledType
  rw [if_pos hRoot]

/-- The pass over a document describes it. -/
theorem Compiled.describes (hPass : pass.Compiled) {environment : Environment}
    {document : SchemaDocument}
    (hContext : PassContext.ofDocument environment document = .ok pass.context) :
    pass.contentType.Describes document := by
  obtain ⟨table, typeName, _, hTypeName, hRead⟩ := PassContext.ofDocument_eq_ok_iff.mp hContext
  have hRoot : pass.context.isRootTable = true := by
    rw [hRead]
    exact decide_eq_true rfl
  obtain ⟨hIdentifier, hKind, hValue⟩ := hPass.contentType_tells
  have hTitle := hPass.contentType_title hRoot
  rw [if_pos hRoot] at hIdentifier
  rw [hRead] at hIdentifier hKind hValue hTitle
  exact ⟨hIdentifier, hKind,
    ⟨typeName, hTypeName, SchemaDocument.isBlank_of_resolvedTypeName hTypeName, hValue⟩, hTitle⟩

/-- Among the content types of documents, only those of one table and one
document go by the same name. -/
theorem Compiled.identifier_eq_name_iff (hPass : pass.Compiled) {name : String}
    {parts : String × String} (hName : splitQualifiedName name = .ok parts) :
    pass.contentType.identifier = name ↔
      pass.context.document.name = name ∧ pass.context.table = pass.context.rootTable := by
  rw [hPass.contentType_tells.1]
  obtain ⟨_, hOwner⟩ := hPass.named
  by_cases hRoot : pass.context.table = pass.context.rootTable
  · simp [PassContext.isRootTable, hRoot]
  · have hNe := append_slash_ne_name hOwner hName pass.context.table
    simp [PassContext.isRootTable, hRoot, hNe]

end Pass

/-! ## Lookup -/

section Lookup

variable {environment : Environment} {documents : List SchemaDocument} {result : CompiledResult}

/-- If all passes under an identifier write one table, the content type of the
first of them is found. -/
theorem contentType?_eq_find? (hResult : compile environment documents = .ok result)
    {identifier table : String}
    (hOn : ∀ pass ∈ (runWalk environment documents).emission.passes,
      pass.contentType.identifier = identifier → pass.context.table = table) :
    result.contentType? identifier =
      ((runWalk environment documents).emission.passes.find? fun pass =>
        pass.contentType.identifier = identifier).map Pass.contentType := by
  let passes := (runWalk environment documents).emission.passes
  -- Only the one table has anything under the identifier.
  have hTable (name : String) (definition : TableDefinition)
      (hMem : (name, definition) ∈ result.tables) :
      definition.contentType? identifier =
        if name = table then
          (passes.find? fun pass => pass.contentType.identifier = identifier).map Pass.contentType
        else none := by
    rw [TableDefinition.contentType?, (laidOver_of_mem_tables hResult hMem).2, List.find?_map,
      Emission.passesOn, List.find?_filter]
    by_cases hName : name = table
    · rw [if_pos hName, ← List.head?_filter, ← List.head?_filter]
      congr 2
      apply List.filter_congr
      intro pass hPass
      by_cases hIdentifier : pass.contentType.identifier = identifier
      · simp [hIdentifier, hOn pass hPass hIdentifier, hName]
      · simp [hIdentifier]
    · rw [if_neg hName, Option.map_eq_none_iff, List.find?_eq_none]
      intro pass hPass hFound
      obtain ⟨hOther, hIdentifier⟩ : pass.context.table = name ∧
          pass.contentType.identifier = identifier := by simpa using hFound
      exact hName (hOther.symm.trans (hOn pass hPass hIdentifier))
  apply Entries.findSome?_values hTable
  -- If anything is found, it belongs to a pass, and the table of a pass is listed.
  intro hSome
  obtain ⟨found, hFind⟩ := Option.isSome_iff_exists.mp (Option.isSome_map.symm.trans hSome)
  have hMem := List.mem_of_find?_eq_some hFind
  have hFound : found.contentType.identifier = identifier := by
    simpa using List.find?_some hFind
  rw [← hOn found hMem hFound, Entries.mem_keys_iff]
  exact exists_lookup_of_mem_passes hResult hMem

/-- The passes of a document stand together among all passes of a run, first
those nested in its own pass and then this pass itself. -/
structure PassesOf (environment : Environment) (document : SchemaDocument)
    (passes earlier nested : List Pass) (own : Pass) (later : List Pass) : Prop where
  split : passes = earlier ++ (nested ++ [own] ++ later)
  reads : PassContext.ofDocument environment document = .ok own.context
  visits : ∃ typeFields, own.nodes = document.rootNodes own.context typeFields
  others : ∀ pass ∈ earlier ++ later, pass.context.document.name ≠ document.name
  within : ∀ pass ∈ nested ++ [own], own.context.Within pass.context
  embedded : ∀ inner ∈ nested, inner.EmbeddedIn (nested ++ [own])

/-- Where documents have different names, every document has such passes. -/
theorem exists_passesOf (hRun : (runWalk environment documents).result = .ok ())
    (hNames : (documents.map SchemaDocument.name).Nodup) {document : SchemaDocument}
    (hDocument : document ∈ documents) :
    ∃ earlier nested own later, PassesOf environment document
      (runWalk environment documents).emission.passes earlier nested own later := by
  obtain ⟨before, after, rfl⟩ := List.append_of_mem hDocument
  have hSites := runWalk_sites hRun
  obtain ⟨_, context, hContext⟩ := SchemaDocument.valid_of_compileAll hRun hDocument
  let typeFields := before.foldl SchemaDocument.declare []
  let site : Site := ⟨context, document.rootPath, document.rootNodes context typeFields⟩
  have hSite : document.rootSite? environment typeFields = some site :=
    SchemaDocument.rootSite?_eq_some_iff.mpr ⟨context, hContext, rfl⟩
  -- The sites of a run fall into those before, that of the document and those after.
  let first := SchemaDocument.rootSites environment [] before
  let last := SchemaDocument.rootSites environment
    (SchemaDocument.declare typeFields document) after
  have hRoots : SchemaDocument.rootSites environment [] (before ++ document :: after) =
      first ++ ([site] ++ last) := by
    rw [SchemaDocument.rootSites_append, SchemaDocument.rootSites, hSite]
    rfl
  rw [hRoots] at hSites
  have hSucceeds : site.Succeeds := hSites.succeeds site (by simp)
  obtain ⟨nested, own, hPasses, hNests⟩ := hSucceeds.exists_passes_eq
  have hOwn : own.context = context := congrArg Site.context hNests.last
  have hNodes : own.nodes = document.rootNodes context typeFields :=
    congrArg Site.nodes hNests.last
  refine ⟨first.flatMap fun site => site.walk.emission.passes, nested, own,
    last.flatMap fun site => site.walk.emission.passes, ?_, ?_, ⟨typeFields, ?_⟩, ?_, ?_,
    hNests.embedded⟩
  · rw [hSites.passes, List.flatMap_append, List.flatMap_append, List.flatMap_singleton, hPasses]
  · rw [hOwn]
    exact hContext
  · rw [hOwn]
    exact hNodes
  · -- Passes of other documents carry the names of those documents.
    intro pass hPass
    rw [← List.flatMap_append] at hPass
    obtain ⟨other, hOther, hBelow⟩ := List.mem_flatMap.mp hPass
    have hMem : other ∈ first ++ ([site] ++ last) := by
      rcases List.mem_append.mp hOther with hOther | hOther <;> simp [hOther]
    have hWithin := within_of_mem_passes (hSites.succeeds other hMem) hBelow
    have hOwner : other.context.document ∈ before ++ after := by
      rcases List.mem_append.mp hOther with hOther | hOther
      · exact List.mem_append_left _ (SchemaDocument.document_of_mem_rootSites hOther)
      · exact List.mem_append_right _ (SchemaDocument.document_of_mem_rootSites hOther)
    rw [hWithin.document]
    intro hName
    have hNames' := (List.perm_middle.map SchemaDocument.name).nodup_iff.mp hNames
    exact (List.nodup_cons.mp hNames').1 (hName ▸ List.mem_map_of_mem hOwner)
  · intro pass hPass
    rw [hOwn]
    rw [← hPasses] at hPass
    exact within_of_mem_passes hSucceeds hPass

/-- What the name of a document leads to in the result of a run over `passes`,
where `own` is the pass over the document. -/
structure FoundByName (environment : Environment) (passes : List Pass) (result : CompiledResult)
    (document : SchemaDocument) (own : Pass) : Prop where
  member : own ∈ passes
  reads : PassContext.ofDocument environment document = .ok own.context
  visits : ∃ typeFields, own.nodes = document.rootNodes own.context typeFields
  describes : own.contentType.Describes document
  /-- Something is found, and it belongs to a pass of the document on its table. -/
  found : ∃ pass ∈ passes, pass.context.document = document ∧
    pass.context.table = own.context.table ∧
      result.contentType? document.name = some pass.contentType
  /-- It is the content type of the document unless a collection writes that
  table. -/
  exact : result.contentType? document.name = some own.contentType ↔
    ∀ inner ∈ passes, inner.EmbeddedIn passes → inner.context.document = document →
      inner.context.table ≠ own.context.table

namespace PassesOf

variable {document : SchemaDocument} {earlier nested : List Pass} {own : Pass}
  {later : List Pass}

theorem context_eq {passes : List Pass}
    (hOf : PassesOf environment document passes earlier nested own later) :
    own.context.document = document ∧ own.context.table = own.context.rootTable ∧
      own.context.typeName ≠ none := by
  obtain ⟨_, _, _, _, hRead⟩ := PassContext.ofDocument_eq_ok_iff.mp hOf.reads
  rw [hRead]
  exact ⟨rfl, rfl, Option.some_ne_none _⟩

theorem splitQualifiedName_eq
    (hOf : PassesOf environment document (runWalk environment documents).emission.passes
      earlier nested own later) : ∃ parts, splitQualifiedName document.name = .ok parts := by
  have hOwn : own ∈ (runWalk environment documents).emission.passes := by
    rw [hOf.split]
    simp
  rw [← hOf.context_eq.1]
  exact (compiled_of_mem_passes hOwn).named

/-- Under the name of a document no other document has a pass. -/
theorem identifier_ne
    (hOf : PassesOf environment document (runWalk environment documents).emission.passes
      earlier nested own later) {pass : Pass} (hPass : pass ∈ earlier ++ later) :
    pass.contentType.identifier ≠ document.name := by
  have hMem : pass ∈ (runWalk environment documents).emission.passes := by
    rw [hOf.split]
    rcases List.mem_append.mp hPass with hPass | hPass <;> simp [hPass]
  obtain ⟨parts, hParts⟩ := hOf.splitQualifiedName_eq
  intro hName
  have hSame := ((compiled_of_mem_passes hMem).identifier_eq_name_iff hParts).mp hName
  exact hOf.others pass hPass hSame.1

/-- Of its own passes those on its table stand under the name. -/
theorem identifier_eq_iff
    (hOf : PassesOf environment document (runWalk environment documents).emission.passes
      earlier nested own later) {pass : Pass} (hPass : pass ∈ nested ++ [own]) :
    pass.contentType.identifier = document.name ↔ pass.context.table = own.context.table := by
  have hMem : pass ∈ (runWalk environment documents).emission.passes := by
    rw [hOf.split]
    exact List.mem_append_right _ (List.mem_append_left _ hPass)
  obtain ⟨parts, hParts⟩ := hOf.splitQualifiedName_eq
  obtain ⟨hDocument, hTable, _⟩ := hOf.context_eq
  have hWithin := hOf.within pass hPass
  rw [(compiled_of_mem_passes hMem).identifier_eq_name_iff hParts, hWithin.document, hDocument,
    hWithin.rootTable, hTable]
  exact and_iff_right rfl

/-- The name leads to the first of these passes. -/
theorem contentType?_name (hResult : compile environment documents = .ok result)
    (hOf : PassesOf environment document (runWalk environment documents).emission.passes
      earlier nested own later) :
    result.contentType? document.name =
      some ((nested.find? fun pass => pass.context.table = own.context.table).getD
        own).contentType := by
  have hOn : ∀ pass ∈ (runWalk environment documents).emission.passes,
      pass.contentType.identifier = document.name → pass.context.table = own.context.table := by
    intro pass hPass hName
    rw [hOf.split] at hPass
    rcases List.mem_append.mp hPass with hPass | hPass
    · exact absurd hName (hOf.identifier_ne (List.mem_append_left _ hPass))
    · rcases List.mem_append.mp hPass with hPass | hPass
      · exact (hOf.identifier_eq_iff hPass).mp hName
      · exact absurd hName (hOf.identifier_ne (List.mem_append_right _ hPass))
  have hEarlier :
      earlier.find? (fun pass => pass.contentType.identifier = document.name) = none := by
    rw [List.find?_eq_none]
    intro pass hPass hName
    exact hOf.identifier_ne (List.mem_append_left _ hPass) (of_decide_eq_true hName)
  have hNested : nested.find? (fun pass => pass.contentType.identifier = document.name) =
      nested.find? fun pass => pass.context.table = own.context.table := by
    rw [← List.head?_filter, ← List.head?_filter]
    congr 1
    apply List.filter_congr
    intro pass hPass
    exact decide_eq_decide.mpr (hOf.identifier_eq_iff (List.mem_append_left _ hPass))
  have hOwn : own.contentType.identifier = document.name :=
    (hOf.identifier_eq_iff (by simp)).mpr rfl
  rw [contentType?_eq_find? hResult hOn, hOf.split, List.find?_append, hEarlier,
    List.find?_append, List.find?_append, hNested]
  cases nested.find? fun pass => pass.context.table = own.context.table with
  | none => simp [hOwn]
  | some inner => rfl

/-- The embedded passes of the document are the nested ones. -/
theorem mem_nested {passes : List Pass}
    (hOf : PassesOf environment document passes earlier nested own later) {inner : Pass}
    (hInner : inner ∈ passes) (hEmbedded : inner.EmbeddedIn passes)
    (hDocument : inner.context.document = document) : inner ∈ nested := by
  have hName : inner.context.document.name = document.name := by rw [hDocument]
  rw [hOf.split, List.mem_append, List.mem_append, List.mem_append, List.mem_singleton] at hInner
  rcases hInner with hEarlier | (hNested | rfl) | hLater
  · exact absurd hName (hOf.others inner (List.mem_append_left _ hEarlier))
  · exact hNested
  · exact absurd hEmbedded.typeName_eq_none hOf.context_eq.2.2
  · exact absurd hName (hOf.others inner (List.mem_append_right _ hLater))

theorem foundByName (hResult : compile environment documents = .ok result)
    (hOf : PassesOf environment document (runWalk environment documents).emission.passes
      earlier nested own later) :
    FoundByName environment (runWalk environment documents).emission.passes result document
      own := by
  have hSub : nested ++ [own] ⊆ (runWalk environment documents).emission.passes := by
    rw [hOf.split]
    exact fun _ hPass => List.mem_append_right _ (List.mem_append_left _ hPass)
  have hOwn : own ∈ (runWalk environment documents).emission.passes := hSub (by simp)
  have hCompiled : own.Compiled := compiled_of_mem_passes hOwn
  obtain ⟨hDocument, _, hTypeName⟩ := hOf.context_eq
  have hFound := hOf.contentType?_name hResult
  -- Either no nested pass writes the table, or the first that does is found.
  cases hFind : nested.find? fun pass => pass.context.table = own.context.table with
  | none =>
      rw [hFind] at hFound
      refine ⟨hOwn, hOf.reads, hOf.visits, hCompiled.describes hOf.reads,
        ⟨own, hOwn, hDocument, rfl, hFound⟩, ⟨fun _ => ?_, fun _ => hFound⟩⟩
      intro inner hInner hEmbedded hSame hTable
      have hNested := hOf.mem_nested hInner hEmbedded hSame
      exact List.find?_eq_none.mp hFind inner hNested (decide_eq_true hTable)
  | some inner =>
      rw [hFind] at hFound
      have hNested : inner ∈ nested := List.mem_of_find?_eq_some hFind
      have hTable : inner.context.table = own.context.table := by
        simpa using List.find?_some hFind
      have hInner := hSub (List.mem_append_left [own] hNested)
      have hSame : inner.context.document = document :=
        (hOf.within inner (List.mem_append_left _ hNested)).document.trans hDocument
      obtain ⟨outer, hOuter, node, hEmbeds⟩ := hOf.embedded inner hNested
      have hEmbedded : inner.EmbeddedIn (runWalk environment documents).emission.passes :=
        ⟨outer, hSub hOuter, node, hEmbeds⟩
      refine ⟨hOwn, hOf.reads, hOf.visits, hCompiled.describes hOf.reads,
        ⟨inner, hInner, hSame, hTable, hFound⟩, ?_⟩
      constructor
      · -- A collection has no discriminator value, so what is found is not the own one.
        intro hExact
        have hTypes : inner.contentType = own.contentType :=
          Option.some.inj (hFound.symm.trans hExact)
        have hValue := (compiled_of_mem_passes hInner).contentType_tells.2.2
        rw [hTypes, hCompiled.contentType_tells.2.2, hEmbedded.typeName_eq_none] at hValue
        exact absurd hValue hTypeName
      · intro hNone
        exact absurd hTable (hNone inner hInner hEmbedded hSame)

end PassesOf

/-- Where documents have different names, the name of each document leads to its
own content type exactly when no collection of the document writes its table,
and the content type of a collection has a made up identifier unless it does. -/
theorem foundByName_of_compile (hResult : compile environment documents = .ok result)
    (hNames : (documents.map SchemaDocument.name).Nodup) :
    (∀ document ∈ documents, ∃ own, FoundByName environment
        (runWalk environment documents).emission.passes result document own) ∧
      ∀ inner ∈ (runWalk environment documents).emission.passes,
        inner.EmbeddedIn (runWalk environment documents).emission.passes →
          inner.contentType.typeName = none ∧ inner.contentType.identifier =
            if inner.context.table = inner.context.rootTable then inner.context.document.name
            else inner.context.document.name ++ "/" ++ inner.context.table := by
  obtain ⟨hRun, _⟩ := compile_eq_ok_iff.mp hResult
  constructor
  · intro document hDocument
    obtain ⟨earlier, nested, own, later, hOf⟩ := exists_passesOf hRun hNames hDocument
    exact ⟨own, hOf.foundByName hResult⟩
  · intro inner hInner hEmbedded
    obtain ⟨hIdentifier, _, hTypeName⟩ := (compiled_of_mem_passes hInner).contentType_tells
    refine ⟨hTypeName.trans hEmbedded.typeName_eq_none, hIdentifier.trans ?_⟩
    simp [PassContext.isRootTable]

end Lookup

/-- A document with a collection that writes the table of the document. -/
def listing : SchemaDocument where
  name := "acme/listing"
  fields :=
    [ { FieldNode.ofType "items" "Collection" with
        table := some "tt_content"
        fields := [.ofType "text" "Text"] } ]

/-- The name of the document leads to its collection. -/
theorem found_collection_listing :
    ((compile galleryEnvironment [listing]).toOption.bind fun result =>
      (result.contentType? "acme/listing").map fun contentType =>
        (contentType.kind, contentType.typeName, contentType.title)) =
      some (.recordType, none, some "items") := by
  decide +kernel

/-- The name of a document leads to its content type where its collection writes
another table. -/
theorem foundByName_of_compile_gallery :
    ∃ result, compile galleryEnvironment [gallery] = .ok result ∧
      ([gallery].map SchemaDocument.name).Nodup ∧
      (∀ document ∈ [gallery], ∃ own, FoundByName galleryEnvironment
          (runWalk galleryEnvironment [gallery]).emission.passes result document own) ∧
        ∀ inner ∈ (runWalk galleryEnvironment [gallery]).emission.passes,
          inner.EmbeddedIn (runWalk galleryEnvironment [gallery]).emission.passes →
            inner.contentType.typeName = none ∧ inner.contentType.identifier =
              if inner.context.table = inner.context.rootTable then inner.context.document.name
              else inner.context.document.name ++ "/" ++ inner.context.table := by
  obtain ⟨result, hResult⟩ := exists_eq_ok_of_isSome
    (by decide +kernel : (compile galleryEnvironment [gallery]).toOption.isSome = true)
  have hNames : ([gallery].map SchemaDocument.name).Nodup := by decide
  exact ⟨result, hResult, hNames, foundByName_of_compile hResult hNames⟩

end ContentSchema
