import ContentSchema.Proofs.Walk.Bounds

/-!
# Errors and the documents that they name

Errors arise at many places of a walk, some of them far below the document that
the walk started with.  All of them name that document, since every pass keeps
the document that it belongs to.

* `Blames` and `Walk.Blames` say that whatever error a step ends with names the
  given document: these are bounds of the step.
* `SchemaDocument.blames_compile` is the statement about a document.

Which of several faults is reported is NOT told here: it is the one that is met
first.
-/

namespace ContentSchema

/-- Whatever error the step ends with names the document. -/
def Blames {α : Type} (name : String) (step : Except CompileError α) : Prop :=
  ∀ error, step = .error error → error.document = name

/-- Whatever error the walk ends with names the document. -/
def Walk.Blames {α : Type} (name : String) (walk : Walk α) : Prop :=
  ContentSchema.Blames name walk.result

/-- All errors that name the document, and all keys. -/
def Bounds.naming (name : String) : Bounds where
  error error := error.document = name
  key _ := True

/-! ## Documents as a whole -/

@[simp] theorem keeps_splitQualifiedName (name : String) :
    Keeps (.naming name) (splitQualifiedName name) := by
  unfold splitQualifiedName
  cases splitQualifiedName? name <;> simp [Bounds.naming]

namespace SchemaDocument

variable {document : SchemaDocument}

@[simp] theorem naming_fault (fault : Fault) :
    (Bounds.naming document.name).error (document.fault fault) := rfl

@[simp] theorem keeps_resolvedTypeName :
    Keeps (.naming document.name) document.resolvedTypeName := by
  unfold resolvedTypeName SchemaDocument.joinedName
  cases document.typeName with
  | some typeName => simp
  | none => cases document.kind <;> simp

theorem keeps_validate : Keeps (.naming document.name) document.validate := by
  unfold validate
  simp

theorem keeps_ofDocument (environment : Environment) (document : SchemaDocument) :
    Keeps (.naming document.name) (PassContext.ofDocument environment document) := by
  unfold PassContext.ofDocument
  split <;> simp

/-- Whatever error a document is refused with names it. -/
theorem blames_compile (environment : Environment) (typeFields : Entries String)
    (document : SchemaDocument) :
    Walk.Blames document.name (document.compile environment typeFields) := by
  have hFields : (Bounds.naming document.name).AdmitFields document :=
    ⟨fun _ _ => rfl, keeps_splitQualifiedName _⟩
  exact (keeps_compile environment typeFields hFields (fun _ _ _ _ => trivial) keeps_validate
    (keeps_ofDocument environment document)).result

end SchemaDocument

end ContentSchema
