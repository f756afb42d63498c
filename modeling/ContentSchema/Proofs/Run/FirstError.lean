import ContentSchema.Proofs.Run.Sites
import ContentSchema.Proofs.Walk.Blame

/-!
# The first error of a run

A run ends with the error of the first document that is refused.  The documents
before it do not change which one that is, and those after it are never looked
at.

* `compile_append_of_error` says that further documents do not change an error.
* `exists_first_refused` finds the document that an error comes from.
* `document_eq_of_refused` says that the error names this document.
* `compile_eq_error_iff_refused` puts these together, by positions.

The error is NOT a matter of the refused document alone: a discriminator that is
declared before it is not added again, so the fault of an added one may be gone.
-/

namespace ContentSchema

/-- A step that leaves nothing ends with an error. -/
theorem exists_eq_error_of_isSome_eq_false {ε α : Type} {step : Except ε α}
    (hNone : step.toOption.isSome = false) : ∃ error, step = .error error := by
  cases step with
  | error e => exact ⟨e, rfl⟩
  | ok a => contradiction

/-- A chain of two walks ends with an error exactly when one of them does. -/
theorem Walk.bind_result_eq_error_iff {α β : Type} {walk : Walk α} {next : α → Walk β}
    {error : CompileError} :
    (walk >>= next).result = .error error ↔
      walk.result = .error error ∨
        ∃ a, walk.result = .ok a ∧ (next a).result = .error error := by
  cases hResult : walk.result with
  | ok a => simp [bind_of_ok hResult]
  | error e => simp [bind_of_error hResult]

section Run

variable {environment : Environment} {documents : List SchemaDocument} {error : CompileError}

/-- A run fails exactly when its walk does, with the same error. -/
theorem compile_eq_error_iff :
    compile environment documents = .error error ↔
      (runWalk environment documents).result = .error error := by
  unfold compile Compiler.compile runWalk
  cases hWalk : (SchemaDocument.compileAll environment [] documents).result with
  | error e => simp [Compiler.reset, hWalk]
  | ok _ => simp [Compiler.reset, hWalk]

/-- The walk over more documents goes on after the walk over the first ones. -/
theorem runWalk_append (first more : List SchemaDocument) :
    runWalk environment (first ++ more) =
      runWalk environment first >>= fun _ =>
        SchemaDocument.compileAll environment (first.foldl SchemaDocument.declare []) more :=
  SchemaDocument.compileAll_append first more

/-- Documents that follow a refused one do not matter. -/
theorem compile_append_of_error (hError : compile environment documents = .error error)
    (more : List SchemaDocument) :
    compile environment (documents ++ more) = .error error := by
  rw [compile_eq_error_iff] at hError ⊢
  rw [runWalk_append, Walk.bind_result_eq_error_iff]
  exact .inl hError

/-- A run that fails fails at one of its documents: those before it are compiled,
and with it there is the error. -/
theorem exists_first_refused (hError : compile environment documents = .error error) :
    ∃ before document after, documents = before ++ document :: after ∧
      (∃ result, compile environment before = .ok result) ∧
      compile environment (before ++ [document]) = .error error := by
  -- The list is built up from its end, so a shorter one has the same documents first.
  induction documents using List.reverseRecOn with
  | nil => cases hError
  | append_singleton documents last ih =>
      cases hBefore : compile environment documents with
      | ok result => exact ⟨documents, last, [], rfl, ⟨result, hBefore⟩, hError⟩
      | error e =>
          have hSame : e = error := by
            have hLater := compile_append_of_error hBefore [last]
            exact Except.error.inj (hLater.symm.trans hError)
          subst hSame
          obtain ⟨before, document, after, rfl, hCompiled, hRefused⟩ := ih hBefore
          refine ⟨before, document, after ++ [last], ?_, hCompiled, hRefused⟩
          rw [List.append_assoc, List.cons_append]

/-- The error of a document that is refused after others were compiled is its own. -/
theorem compile_result_eq_error_of_refused {before : List SchemaDocument}
    {document : SchemaDocument}
    (hBefore : ∃ result, compile environment before = .ok result)
    (hError : compile environment (before ++ [document]) = .error error) :
    (document.compile environment (before.foldl SchemaDocument.declare [])).result =
      .error error := by
  rw [exists_result_iff] at hBefore
  rw [compile_eq_error_iff, runWalk_append, Walk.bind_result_eq_error_iff] at hError
  obtain hFirst | ⟨_, _, hLast⟩ := hError
  · rw [hBefore] at hFirst
    contradiction
  · -- Nothing is left to fail once the last document is compiled.
    unfold SchemaDocument.compileAll at hLast
    obtain hOwn | ⟨context, _, hRest⟩ := Walk.bind_result_eq_error_iff.mp hLast
    · exact hOwn
    · cases hField : context.typeField <;>
        simp [hField, SchemaDocument.compileAll] at hRest

/-- The error of a document that is refused after others were compiled names
this document. -/
theorem document_eq_of_refused {before : List SchemaDocument} {document : SchemaDocument}
    (hBefore : ∃ result, compile environment before = .ok result)
    (hError : compile environment (before ++ [document]) = .error error) :
    error.document = document.name :=
  SchemaDocument.blames_compile environment _ document error
    (compile_result_eq_error_of_refused hBefore hError)

/-- **First errors.**  A run fails with an error exactly if the documents before
some position are compiled and with the one at this position there is that
error.  The error then names the document at this position, and remains the
error of every list that begins with the same documents. -/
theorem compile_eq_error_iff_refused (environment : Environment)
    (documents : List SchemaDocument) (error : CompileError) :
    (compile environment documents = .error error ↔
      ∃ index < documents.length,
        (∃ result, compile environment (documents.take index) = .ok result) ∧
          compile environment (documents.take (index + 1)) = .error error) ∧
    ∀ (index : Nat) (hIndex : index < documents.length),
      (∃ result, compile environment (documents.take index) = .ok result) →
      compile environment (documents.take (index + 1)) = .error error →
        error.document = documents[index].name ∧
          ∀ more, compile environment (documents.take (index + 1) ++ more) = .error error := by
  refine ⟨⟨?_, ?_⟩, ?_⟩
  · intro hError
    obtain ⟨before, document, after, rfl, hBefore, hRefused⟩ := exists_first_refused hError
    have hFirst : (before ++ document :: after).take before.length = before := List.take_left
    have hUpTo : (before ++ document :: after).take (before.length + 1) = before ++ [document] := by
      rw [List.take_length_add_append]
      rfl
    refine ⟨before.length, by simp, ?_, ?_⟩
    · rw [hFirst]
      exact hBefore
    · rw [hUpTo]
      exact hRefused
  · rintro ⟨index, _, _, hRefused⟩
    have hAll := compile_append_of_error hRefused (documents.drop (index + 1))
    rwa [List.take_append_drop] at hAll
  · intro index hIndex hBefore hRefused
    refine ⟨?_, fun more => compile_append_of_error hRefused more⟩
    rw [List.take_succ_eq_append_getElem hIndex] at hRefused
    exact document_eq_of_refused hBefore hRefused

end Run

/-- A slider whose slides have two captions. -/
def captionedSlider : SchemaDocument where
  name := "acme/captions"
  fields :=
    [ { FieldNode.ofType "slides" "Collection" with
        fields := [.ofType "caption" "Text", .ofType "caption" "Text"] } ]

/-- Between two documents that are in order, the second caption is the fault, and
the error names the document around the collection. -/
theorem compile_eq_error_iff_refused_captionedSlider :
    ∃ error, compile galleryEnvironment [gallery, captionedSlider, gallery] = .error error ∧
      error.document = "acme/captions" := by
  have hBefore : ∃ result, compile galleryEnvironment [gallery] = .ok result :=
    exists_eq_ok_of_isSome (by decide +kernel)
  obtain ⟨error, hError⟩ : ∃ error,
      compile galleryEnvironment [gallery, captionedSlider] = .error error :=
    exists_eq_error_of_isSome_eq_false (by decide +kernel)
  obtain ⟨hFails, hNames⟩ := compile_eq_error_iff_refused galleryEnvironment
    [gallery, captionedSlider, gallery] error
  exact ⟨error, hFails.mpr ⟨1, by decide, hBefore, hError⟩,
    (hNames 1 (by decide) hBefore hError).1⟩

end ContentSchema
