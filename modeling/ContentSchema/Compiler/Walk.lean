import ContentSchema.Compiler.Pass
import ContentSchema.Language.Keys

/-!
# Walks over the field tree

A walk emits language keys, references to child tables and finished passes
as it goes, and ends with a result or with the first error.  What was emitted
before an error remains: a walk never takes back an emission.
-/

namespace ContentSchema

/-- What a walk emits, each list in order. -/
structure Emission where
  /-- Language keys with the documents that registered them. -/
  keys : List (String × LanguageKey) := []
  /-- Collection fields with the child tables that they refer to. -/
  references : List (String × CompiledField) := []
  /-- The tables of the passes in the order in which the passes started. -/
  opened : List String := []
  /-- The passes in the order in which they finished. -/
  passes : List Pass := []
  /-- Discriminator columns with their tables. -/
  typeFields : List (String × String) := []

namespace Emission

/-- One emission after another. -/
def append (first second : Emission) : Emission where
  keys := first.keys ++ second.keys
  references := first.references ++ second.references
  opened := first.opened ++ second.opened
  passes := first.passes ++ second.passes
  typeFields := first.typeFields ++ second.typeFields

instance : Append Emission := ⟨append⟩

theorem append_def (a b : Emission) : a ++ b = append a b := rfl

@[simp] theorem keys_append (a b : Emission) : (a ++ b).keys = a.keys ++ b.keys := rfl

@[simp] theorem references_append (a b : Emission) :
    (a ++ b).references = a.references ++ b.references := rfl

@[simp] theorem opened_append (a b : Emission) : (a ++ b).opened = a.opened ++ b.opened := rfl

@[simp] theorem passes_append (a b : Emission) : (a ++ b).passes = a.passes ++ b.passes := rfl

@[simp] theorem typeFields_append (a b : Emission) :
    (a ++ b).typeFields = a.typeFields ++ b.typeFields := rfl

@[simp] theorem nil_append (a : Emission) : ({} : Emission) ++ a = a := by
  simp [append_def, append]

@[simp] theorem append_nil (a : Emission) : a ++ ({} : Emission) = a := by
  simp [append_def, append]

theorem append_assoc (a b c : Emission) : a ++ b ++ c = a ++ (b ++ c) := by
  simp [append_def, append]

end Emission

/-- What is emitted until the end, and how it ends. -/
structure Walk (α : Type) where
  emission : Emission := {}
  result : Except CompileError α

namespace Walk

variable {α β : Type}

/-- A walk that emits nothing. -/
def ofExcept (result : Except CompileError α) : Walk α where
  result := result

/-- A walk that emits and goes on. -/
def emit (emission : Emission) : Walk Unit where
  emission := emission
  result := .ok ()

/-- Walk on with the result, unless there was an error. -/
def bind (walk : Walk α) (next : α → Walk β) : Walk β :=
  match walk.result with
  | .ok a => ⟨walk.emission ++ (next a).emission, (next a).result⟩
  | .error e => ⟨walk.emission, .error e⟩

instance : Monad Walk where
  pure a := ofExcept (.ok a)
  bind := bind

instance : MonadLift (Except CompileError) Walk := ⟨ofExcept⟩

@[simp] theorem pure_emission (a : α) : (pure a : Walk α).emission = {} := rfl

@[simp] theorem pure_result (a : α) : (pure a : Walk α).result = .ok a := rfl

theorem bind_eq (walk : Walk α) (next : α → Walk β) : walk >>= next = bind walk next := rfl

theorem bind_of_ok {walk : Walk α} {a : α} (h : walk.result = .ok a) (next : α → Walk β) :
    walk >>= next = ⟨walk.emission ++ (next a).emission, (next a).result⟩ := by
  simp [bind_eq, bind, h]

theorem bind_of_error {walk : Walk α} {e : CompileError} (h : walk.result = .error e)
    (next : α → Walk β) : walk >>= next = ⟨walk.emission, .error e⟩ := by
  simp [bind_eq, bind, h]

/-- A chain of two walks ends well exactly when both do. -/
theorem bind_result_eq_ok_iff {walk : Walk α} {next : α → Walk β} {b : β} :
    (walk >>= next).result = .ok b ↔
      ∃ a, walk.result = .ok a ∧ (next a).result = .ok b := by
  cases h : walk.result with
  | ok a => simp [bind_of_ok h]
  | error e => simp [bind_of_error h]

instance : LawfulMonad Walk :=
  LawfulMonad.mk' Walk
    (by
      intro α walk
      show bind walk (fun a => ofExcept (.ok (id a))) = walk
      obtain ⟨emission, result⟩ := walk
      cases result <;> simp [bind, ofExcept])
    (by
      intro α β a next
      show bind (ofExcept (.ok a)) next = next a
      simp [bind, ofExcept])
    (by
      intro α β γ walk f g
      obtain ⟨emission, result⟩ := walk
      cases result with
      | error e => rfl
      | ok a =>
          simp only [bind_eq, bind]
          cases h : (f a).result <;> simp [Emission.append_assoc])

end Walk

namespace PassContext

/-- End the walk with a fault. -/
def fail {α : Type} (context : PassContext) (fault : Fault) : Walk α :=
  .ofExcept (.error (context.fault fault))

/-- Register a language key at a position, and give its full path. -/
def register (context : PassContext) (path : LanguagePath) (suffix default : String) :
    Walk String := do
  let key : LanguageKey := ⟨path.keyFor suffix, path.pathFor suffix, default⟩
  Walk.emit { keys := [(context.document.name, key)] }
  return key.path

/-- Register a language key if there is a text. -/
def registerOptional (context : PassContext) (path : LanguagePath) (suffix : String) :
    Option String → Walk (Option String)
  | some default => do return some (← context.register path suffix default)
  | none => pure none

/-- Refer to a child table. -/
def refer (childTable : String) (field : CompiledField) : Walk Unit :=
  Walk.emit { references := [(childTable, field)] }

end PassContext

end ContentSchema
