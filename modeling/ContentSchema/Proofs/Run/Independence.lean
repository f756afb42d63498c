import ContentSchema.Proofs.Run.Growth

/-!
# Independent documents

Of what was compiled before it a document knows only the discriminator columns
declared for its own table.  Where no document of one list targets the table of a
document of another, the two lists are therefore compiled as if alone, also in
the tables of collections that both of them write to.

* `SchemaDocument.compileAll_congr` says what the walk over documents depends on.
* `runWalk_append_of_apart` joins the walks of two lists.
* `compile_append_of_apart` says what becomes of the results.

A table that both lists write to is NOT among what is kept: it is merged from the
passes of both.
-/

namespace ContentSchema

/-! ## What a walk depends on -/

/-- Only what is declared for the table of a pass counts for its added nodes. -/
theorem PassContext.addedNodes_congr {context : PassContext} {first second : Entries String}
    (hSame : first.lookup context.table = second.lookup context.table) :
    context.addedNodes first = context.addedNodes second := by
  unfold addedNodes knowsTypeField
  rw [hSame]

namespace SchemaDocument

/-- The same discriminator columns are declared for the tables of the documents. -/
def DeclaredAlike (documents : List SchemaDocument) (first second : Entries String) : Prop :=
  ∀ document ∈ documents, ∀ table, document.tableName = some table →
    first.lookup table = second.lookup table

/-- No document of the second list targets the table of one of the first. -/
def Apart (first second : List SchemaDocument) : Prop :=
  ∀ document ∈ first, ∀ other ∈ second, ∀ table,
    document.tableName = some table → other.tableName ≠ some table

variable {environment : Environment} {first second : Entries String}

theorem DeclaredAlike.declare {documents : List SchemaDocument}
    (hAlike : DeclaredAlike documents first second) (document : SchemaDocument) :
    DeclaredAlike documents (declare first document) (declare second document) := by
  intro other hOther table hTable
  rw [lookup_declare_eq, lookup_declare_eq, hAlike other hOther table hTable]

/-- The walk over a document depends on what is declared for its table. -/
theorem compile_congr {document : SchemaDocument}
    (hAlike : ∀ table, document.tableName = some table →
      first.lookup table = second.lookup table) :
    document.compile environment first = document.compile environment second := by
  unfold compile
  refine Walk.bind_congr_ok fun _ _ => Walk.bind_congr_ok fun context hContext => ?_
  obtain ⟨hTable, _⟩ :=
    PassContext.tableName_of_ofDocument ((Walk.liftM_result _).symm.trans hContext)
  rw [PassContext.addedNodes_congr (hAlike _ hTable)]

/-- The walk over documents depends on what is declared for their tables. -/
theorem compileAll_congr {documents : List SchemaDocument}
    (hAlike : DeclaredAlike documents first second) :
    compileAll environment first documents = compileAll environment second documents := by
  induction documents generalizing first second with
  | nil => rfl
  | cons document rest ih =>
      have hHere : document.compile environment first = document.compile environment second :=
        compile_congr (hAlike document List.mem_cons_self)
      have hRest : DeclaredAlike rest first second := fun other hOther =>
        hAlike other (List.mem_cons_of_mem _ hOther)
      rw [compileAll, compileAll, hHere]
      refine Walk.bind_congr_ok fun context hDocument => ?_
      obtain ⟨_, hContext, _⟩ := compile_result_eq_ok_iff.mp hDocument
      have hLater := ih (hRest.declare document)
      rw [← declared_eq_declare hContext, ← declared_eq_declare hContext] at hLater
      unfold declared at hLater
      cases hField : context.typeField with
      | none =>
          rw [hField] at hLater
          exact hLater
      | some typeField =>
          rw [hField] at hLater
          exact congrArg (fun later => Walk.emit _ >>= fun _ => later) hLater

/-- What documents on other tables declare does not matter. -/
theorem Apart.declaredAlike {first second : List SchemaDocument} (hApart : Apart first second)
    (typeFields : Entries String) :
    DeclaredAlike second (first.foldl SchemaDocument.declare typeFields) typeFields := by
  intro other hOther table hTable
  induction first generalizing typeFields with
  | nil => rfl
  | cons document rest ih =>
      have hElsewhere : document.tableName.filter (fun table => !table.isEmpty) ≠ some table := by
        intro hFiltered
        exact hApart document List.mem_cons_self other hOther table
          (Option.filter_eq_some_iff.mp hFiltered).1 hTable
      rw [List.foldl_cons,
        ih (fun document hDocument => hApart document (List.mem_cons_of_mem _ hDocument)),
        lookup_declare_eq, if_neg hElsewhere, Option.or_none]

end SchemaDocument

/-! ## Two lists of documents -/

section Run

variable {environment : Environment} {first second : List SchemaDocument}

/-- Lists of documents on different tables are compiled one after the other as if
each were alone. -/
theorem runWalk_append_of_apart (hApart : SchemaDocument.Apart first second) :
    runWalk environment (first ++ second) =
      runWalk environment first >>= fun _ => runWalk environment second := by
  unfold runWalk
  rw [SchemaDocument.compileAll_append,
    SchemaDocument.compileAll_congr (hApart.declaredAlike [])]

end Run

/-- The first result lists what the two others do, one after the other, and
defines the tables of either of them that are not tables of the other. -/
structure CompiledResult.Joins (whole left right : CompiledResult) : Prop where
  languageKeys : ∀ name,
    whole.languageKeys.get name = left.languageKeys.get name ++ right.languageKeys.get name
  contentTypes : ∀ table,
    whole.contentTypesOf table = left.contentTypesOf table ++ right.contentTypesOf table
  parentReferences : ∀ table,
    whole.referencesTo table = left.referencesTo table ++ right.referencesTo table
  onlyLeft : ∀ table, right.table? table = none → whole.table? table = left.table? table
  onlyRight : ∀ table, left.table? table = none → whole.table? table = right.table? table

section Run

variable {environment : Environment} {first second documents : List SchemaDocument}
  {result : CompiledResult}

/-- A table is missing from a result if no pass writes it. -/
theorem passesOn_eq_nil_of_table? (hResult : compile environment documents = .ok result)
    {table : String} (hNone : result.table? table = none) :
    (runWalk environment documents).emission.passesOn table = [] := by
  rw [table?_of_compile hResult] at hNone
  by_contra hSome
  have hTables : ((runWalk environment documents).emission.contributionsTo table).tables ≠ [] := by
    simpa [Emission.contributionsTo] using hSome
  rw [← Contributions.isSome_merged?_iff, hNone] at hTables
  contradiction

/-- What joined emissions contribute to a result. -/
theorem joins_of_emission {left right whole : CompiledResult}
    (hLeft : compile environment first = .ok left)
    (hRight : compile environment second = .ok right)
    (hWhole : compile environment (first ++ second) = .ok whole)
    (hEmission : (runWalk environment (first ++ second)).emission =
      (runWalk environment first).emission ++ (runWalk environment second).emission) :
    whole.Joins left right where
  languageKeys := by
    intro name
    rw [get_languageKeys hWhole, get_languageKeys hLeft, get_languageKeys hRight, hEmission,
      Emission.keys_append, List.filter_append, List.map_append]
  contentTypes := by
    intro table
    rw [contentTypesOf_of_compile hWhole, contentTypesOf_of_compile hLeft,
      contentTypesOf_of_compile hRight, hEmission, Emission.passesOn_append, List.map_append]
  parentReferences := by
    intro table
    rw [referencesTo_of_compile hWhole, referencesTo_of_compile hLeft,
      referencesTo_of_compile hRight, hEmission, Emission.references_append, List.filter_append,
      List.map_append]
  onlyLeft := by
    intro table hNone
    have hNil := passesOn_eq_nil_of_table? hRight hNone
    rw [table?_of_compile hWhole, table?_of_compile hLeft, hEmission]
    unfold Emission.contributionsTo
    rw [Emission.passesOn_append, hNil, List.append_nil]
  onlyRight := by
    intro table hNone
    have hNil := passesOn_eq_nil_of_table? hLeft hNone
    rw [table?_of_compile hWhole, table?_of_compile hRight, hEmission]
    unfold Emission.contributionsTo
    rw [Emission.passesOn_append, hNil, List.nil_append]

/-- **Independence.**  Documents that target no table of the documents before
them succeed exactly if they do alone, and their result joins that of the others. -/
theorem compile_append_of_apart (hApart : SchemaDocument.Apart first second) :
    ((∃ whole, compile environment (first ++ second) = .ok whole) ↔
      (∃ left, compile environment first = .ok left) ∧
        ∃ right, compile environment second = .ok right) ∧
      ∀ whole left right, compile environment (first ++ second) = .ok whole →
        compile environment first = .ok left → compile environment second = .ok right →
          whole.Joins left right := by
  have hWalk : runWalk environment (first ++ second) =
      runWalk environment first >>= fun _ => runWalk environment second :=
    runWalk_append_of_apart hApart
  have hResults : (runWalk environment (first ++ second)).result = .ok () ↔
      (runWalk environment first).result = .ok () ∧
        (runWalk environment second).result = .ok () := by
    rw [hWalk, Walk.bind_result_eq_ok_iff]
    exact ⟨fun ⟨(), hFirst, hSecond⟩ => ⟨hFirst, hSecond⟩, fun hBoth => ⟨(), hBoth⟩⟩
  refine ⟨?_, ?_⟩
  · simp only [exists_result_iff, hResults]
  · intro whole left right hWhole hLeft hRight
    obtain ⟨hFirst, _⟩ := compile_eq_ok_iff.mp hLeft
    refine joins_of_emission hLeft hRight hWhole ?_
    rw [hWalk, Walk.bind_of_ok hFirst]

end Run

/-- A content element with a collection of media. -/
def slider : SchemaDocument where
  name := "acme/slider"
  fields :=
    [ { FieldNode.ofType "slides" "Collection" with
        table := some "tx_media"
        fields := [.ofType "caption" "Text"] } ]

/-- A record type with a collection in the same child table. -/
def album : SchemaDocument where
  name := "acme/album"
  kind := .recordType
  table := some "tx_album"
  fields :=
    [ .ofType "title" "Text",
      { FieldNode.ofType "photos" "Collection" with
        table := some "tx_media"
        fields := [.ofType "caption" "Text", .ofType "place" "Text"] } ]

/-- The two documents are compiled as if alone, although their collections share
a child table. -/
theorem compile_append_of_apart_album :
    SchemaDocument.Apart [slider] [album] ∧
      ∃ whole left right, compile galleryEnvironment ([slider] ++ [album]) = .ok whole ∧
        compile galleryEnvironment [slider] = .ok left ∧
        compile galleryEnvironment [album] = .ok right ∧ whole.Joins left right ∧
          (left.contentTypesOf "tx_media").length = 1 ∧
          (right.contentTypesOf "tx_media").length = 1 := by
  have hApart : SchemaDocument.Apart [slider] [album] := by
    intro document hDocument other hOther table hTable hSame
    rw [List.mem_singleton.mp hDocument] at hTable
    rw [List.mem_singleton.mp hOther, ← hTable] at hSame
    exact absurd hSame (by decide)
  have hLength (document : SchemaDocument) (hMade :
      (compile galleryEnvironment [document]).toOption.map (fun result =>
        (result.contentTypesOf "tx_media").length) = some 1) :
      ∃ result, compile galleryEnvironment [document] = .ok result ∧
        (result.contentTypesOf "tx_media").length = 1 := by
    obtain ⟨result, hResult, hOne⟩ := Option.map_eq_some_iff.mp hMade
    exact ⟨result, eq_ok_of_toOption_eq_some hResult, hOne⟩
  obtain ⟨left, hLeft, hSlides⟩ := hLength slider (by decide +kernel)
  obtain ⟨right, hRight, hPhotos⟩ := hLength album (by decide +kernel)
  obtain ⟨hSucceeds, hJoins⟩ := @compile_append_of_apart galleryEnvironment _ _ hApart
  obtain ⟨whole, hWhole⟩ := hSucceeds.mpr ⟨⟨left, hLeft⟩, right, hRight⟩
  exact ⟨hApart, whole, left, right, hWhole, hLeft, hRight, hJoins _ _ _ hWhole hLeft hRight,
    hSlides, hPhotos⟩

end ContentSchema
