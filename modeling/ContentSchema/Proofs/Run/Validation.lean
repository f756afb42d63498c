import ContentSchema.Proofs.Run.FirstError

/-!
# Validation

The name, the table and the discriminator of a document are read again in every
pass, for every palette and for every field.  None of these readings finds a fault
in a valid document: once it is validated, only its fields can be at fault.

* `SchemaDocument.exists_ofDocument_of_validate` opens the pass over the document.
* `SchemaDocument.compile_eq_validate_error_iff` compares the faults of documents
  as a whole with those that validation reports.
* `validated_of_validate` puts these together, for runs as well.

A valid document does NOT have to compile.
-/

namespace ContentSchema

/-- The errors of fields, and any keys. -/
def Bounds.ofFields : Bounds where
  error error := ¬error.fault.OfDocument
  key _ := True

/-- The errors of documents as a whole, and any keys. -/
def Bounds.ofDocuments : Bounds where
  error error := error.fault.OfDocument
  key _ := True

namespace SchemaDocument

variable {document : SchemaDocument} {environment : Environment} {typeFields : Entries String}
  {error : CompileError}

/-! ## Valid documents -/

/-- What validation has found out once it is through. -/
theorem exists_of_validate (hValid : document.validate = .ok ()) :
    ∃ table typeName, document.tableName = some table ∧ table ≠ "" ∧
      document.resolvedTypeName = .ok typeName := by
  unfold validate at hValid
  obtain ⟨_, _, hValid⟩ := bind_eq_ok_iff.mp hValid
  cases hTable : document.tableName with
  | none =>
      rw [hTable] at hValid
      contradiction
  | some table =>
      rw [hTable] at hValid
      cases hBlank : Text.isBlank table with
      | true =>
          simp only [Option.all_some, hBlank] at hValid
          contradiction
      | false =>
          simp only [Option.all_some, hBlank, Bool.false_eq_true, if_false] at hValid
          split at hValid
          · contradiction
          · obtain ⟨typeName, hTypeName, _⟩ := bind_eq_ok_iff.mp hValid
            refine ⟨table, typeName, rfl, ?_, hTypeName⟩
            rintro rfl
            contradiction

/-- The pass over a valid document can be opened, in every environment. -/
theorem exists_ofDocument_of_validate (environment : Environment)
    (hValid : document.validate = .ok ()) :
    ∃ context, PassContext.ofDocument environment document = .ok context := by
  obtain ⟨table, typeName, hTable, hSome, hTypeName⟩ := exists_of_validate hValid
  have hKept : document.tableName.filter (fun table => !table.isEmpty) = some table := by
    simp [hTable, hSome]
  unfold PassContext.ofDocument
  rw [hKept, hTypeName]
  exact ⟨_, rfl⟩

/-- What a valid document is refused for is a fault of its fields. -/
theorem not_ofDocument_of_compile (hValid : document.validate = .ok ())
    (hError : (document.compile environment typeFields).result = .error error) :
    ¬error.fault.OfDocument := by
  obtain ⟨_, hName⟩ := exists_splitQualifiedName_of_validate hValid
  obtain ⟨_, hContext⟩ := exists_ofDocument_of_validate environment hValid
  have hFields : Bounds.ofFields.AdmitFields document :=
    ⟨fun _ hFault => hFault, keeps_of_eq_ok hName⟩
  exact (keeps_compile environment typeFields hFields (fun _ _ _ _ => trivial)
    (keeps_of_eq_ok hValid) (keeps_of_eq_ok hContext)).result error hError

/-! ## Faults of documents -/

/-- Whatever validation reports is a fault of the document as a whole. -/
theorem ofDocument_of_validate (hError : document.validate = .error error) :
    error.fault.OfDocument := by
  have hName : Keeps .ofDocuments (splitQualifiedName document.name) := by
    unfold splitQualifiedName
    cases splitQualifiedName? document.name with
    | some parts => exact keeps_ok parts
    | none => exact keeps_error_iff.mpr .invalidQualifiedName
  have hFault {fault : Fault} (hDocument : fault.OfDocument) :
      Bounds.ofDocuments.error (document.fault fault) := hDocument
  have hTypeName : Keeps .ofDocuments document.resolvedTypeName := by
    unfold resolvedTypeName SchemaDocument.joinedName
    cases document.typeName with
    | some typeName => simp [hFault .missingTypeName]
    | none => cases document.kind <;> simp [hName, hFault .missingTypeName]
  have hAll : Keeps .ofDocuments document.validate := by
    unfold validate
    simp [hName, hTypeName, hFault .missingTable, hFault .missingTypeField,
      hFault (.invalidEnumValue _ _ _)]
  exact hAll error hError

/-- A document is refused for a fault of the whole exactly if validation reports it. -/
theorem compile_eq_validate_error_iff :
    (document.compile environment typeFields).result = .error error ∧ error.fault.OfDocument ↔
      document.validate = .error error := by
  constructor
  · rintro ⟨hError, hFault⟩
    cases hValidate : document.validate with
    | ok =>
        exact absurd hFault (not_ofDocument_of_compile hValidate hError)
    | error first =>
        unfold compile at hError
        rw [hValidate, Walk.bind_of_error rfl] at hError
        rw [Except.error.inj hError]
  · intro hValidate
    refine ⟨?_, ofDocument_of_validate hValidate⟩
    unfold compile
    rw [hValidate, Walk.bind_of_error rfl]

end SchemaDocument

/-- Once a document is validated, the pass over it can be opened and nothing is wrong
with the document as a whole, at whatever depth of it and of a run. -/
theorem validated_of_validate {document : SchemaDocument} (hValid : document.validate = .ok ())
    (environment : Environment) :
    (∃ context, PassContext.ofDocument environment document = .ok context) ∧
    (∀ typeFields error, (document.compile environment typeFields).result = .error error →
      ¬error.fault.OfDocument) ∧
    ∀ before, (∃ result, compile environment before = .ok result) →
      ∀ error, compile environment (before ++ [document]) = .error error →
        ¬error.fault.OfDocument := by
  -- Validation would have reported a fault of the whole.
  have hFields {typeFields : Entries String} {error : CompileError}
      (hError : (document.compile environment typeFields).result = .error error) :
      ¬error.fault.OfDocument := by
    intro hFault
    have hReported := SchemaDocument.compile_eq_validate_error_iff.mp ⟨hError, hFault⟩
    rw [hValid] at hReported
    contradiction
  refine ⟨SchemaDocument.exists_ofDocument_of_validate environment hValid, ?_, ?_⟩
  · exact fun _ _ hError => hFields hError
  · intro before hBefore error hError
    exact hFields (compile_result_eq_error_of_refused hBefore hError)

/-- The slider is valid, and what it is refused for stands in its collection. -/
theorem validated_of_validate_captionedSlider :
    ∃ error, compile galleryEnvironment [gallery, captionedSlider] = .error error ∧
      ¬error.fault.OfDocument := by
  have hValid : captionedSlider.validate = .ok () :=
    eq_ok_of_toOption_eq_some (by decide +kernel)
  have hBefore : ∃ result, compile galleryEnvironment [gallery] = .ok result :=
    exists_eq_ok_of_isSome (by decide +kernel)
  obtain ⟨error, hError⟩ : ∃ error,
      compile galleryEnvironment [gallery, captionedSlider] = .error error :=
    exists_eq_error_of_isSome_eq_false (by decide +kernel)
  exact ⟨error, hError,
    (validated_of_validate hValid galleryEnvironment).2.2 [gallery] hBefore error hError⟩

end ContentSchema
