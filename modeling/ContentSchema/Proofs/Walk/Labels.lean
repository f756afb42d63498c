import ContentSchema.Compiler.Basic
import ContentSchema.Proofs.Walk.Result

/-!
# Walks that register labels

Most steps of a walk emit nothing but language keys.  What a walk emits besides
them is its emission without keys, and a step that only registers labels can be
left out when that is told.

* `Emission.unlabelled` is an emission without its keys.
* `Walk.LabelsOnly` says that nothing else is emitted.
* `Walk.unlabelled_bind` skips nothing, `Walk.unlabelled_bind_of_labelsOnly`
  skips a step of labels.

A step that only registers labels may still fail: `LabelsOnly` does NOT say how
the walk ends.
-/

namespace ContentSchema

/-- What is emitted besides language keys. -/
def Emission.unlabelled (emission : Emission) : Emission :=
  { emission with keys := [] }

namespace Emission

@[simp] theorem unlabelled_empty : ({} : Emission).unlabelled = {} := rfl

@[simp] theorem unlabelled_append (a b : Emission) :
    (a ++ b).unlabelled = a.unlabelled ++ b.unlabelled := rfl

theorem append_eq_empty_iff {a b : Emission} : a ++ b = {} ↔ a = {} ∧ b = {} := by
  obtain ⟨keys, references, opened, passes, typeFields⟩ := a
  obtain ⟨keys', references', opened', passes', typeFields'⟩ := b
  simp only [append_def, append, Emission.mk.injEq, List.append_eq_nil_iff]
  constructor
  · rintro ⟨⟨hKeys, hKeys'⟩, ⟨hReferences, hReferences'⟩, ⟨hOpened, hOpened'⟩,
      ⟨hPasses, hPasses'⟩, hTypeFields, hTypeFields'⟩
    exact ⟨⟨hKeys, hReferences, hOpened, hPasses, hTypeFields⟩,
      hKeys', hReferences', hOpened', hPasses', hTypeFields'⟩
  · rintro ⟨⟨hKeys, hReferences, hOpened, hPasses, hTypeFields⟩,
      hKeys', hReferences', hOpened', hPasses', hTypeFields'⟩
    exact ⟨⟨hKeys, hKeys'⟩, ⟨hReferences, hReferences'⟩, ⟨hOpened, hOpened'⟩,
      ⟨hPasses, hPasses'⟩, hTypeFields, hTypeFields'⟩

end Emission

namespace Walk

variable {α β : Type}

/-- The walk emits nothing but language keys. -/
def LabelsOnly (walk : Walk α) : Prop :=
  walk.emission.unlabelled = {}

@[simp] theorem labelsOnly_pure (a : α) : LabelsOnly (pure a) := rfl

@[simp] theorem labelsOnly_liftM (result : Except CompileError α) :
    LabelsOnly (liftM result : Walk α) := rfl

@[simp] theorem labelsOnly_fail (context : PassContext) (fault : Fault) :
    LabelsOnly (context.fail fault : Walk α) := rfl

/-- A chain registers labels only if its steps do, as far as it gets. -/
@[simp] theorem labelsOnly_bind_iff {walk : Walk α} {next : α → Walk β} :
    LabelsOnly (walk >>= next) ↔
      LabelsOnly walk ∧ ∀ a, walk.result = .ok a → LabelsOnly (next a) := by
  unfold LabelsOnly
  cases hResult : walk.result with
  | error e => simp [bind_of_error hResult]
  | ok a => simp [bind_of_ok hResult, Emission.append_eq_empty_iff]

@[simp] theorem labelsOnly_map_iff {f : α → β} {walk : Walk α} :
    LabelsOnly (f <$> walk) ↔ LabelsOnly walk := by
  rw [← bind_pure_comp, labelsOnly_bind_iff]
  simp

@[simp] theorem labelsOnly_ite_iff {condition : Prop} [Decidable condition]
    {first second : Walk α} :
    LabelsOnly (if condition then first else second) ↔
      (condition → LabelsOnly first) ∧ (¬condition → LabelsOnly second) := by
  by_cases hCondition : condition <;> simp [hCondition]

/-- A chain emits what its steps emit. -/
theorem unlabelled_bind {walk : Walk α} {a : α} (hResult : walk.result = .ok a)
    (next : α → Walk β) :
    (walk >>= next).emission.unlabelled =
      walk.emission.unlabelled ++ (next a).emission.unlabelled := by
  rw [bind_of_ok hResult]
  rfl

/-- Labels that are registered first are all that is left out. -/
theorem unlabelled_bind_of_labelsOnly {walk : Walk α} {a : α} (hResult : walk.result = .ok a)
    (hLabels : LabelsOnly walk) (next : α → Walk β) :
    (walk >>= next).emission.unlabelled = (next a).emission.unlabelled := by
  rw [unlabelled_bind hResult, hLabels, Emission.nil_append]

theorem unlabelled_map {f : α → β} {walk : Walk α} {a : α} (hResult : walk.result = .ok a) :
    (f <$> walk).emission.unlabelled = walk.emission.unlabelled := by
  rw [← bind_pure_comp, unlabelled_bind hResult]
  exact Emission.append_nil _

end Walk

/-! ## Labels of nodes -/

namespace PassContext

variable {context : PassContext} {path : LanguagePath}

@[simp] theorem labelsOnly_register (suffix default : String) :
    Walk.LabelsOnly (context.register path suffix default) := rfl

@[simp] theorem labelsOnly_registerOptional (suffix : String) (text : Option String) :
    Walk.LabelsOnly (context.registerOptional path suffix text) := by
  cases text <;> rfl

@[simp] theorem labelsOnly_registerLabels (node : FieldNode) (identifier : String)
    (type : TypeDescriptor) :
    Walk.LabelsOnly (context.registerLabels path node identifier type) := by
  unfold registerLabels
  simp

@[simp] theorem labelsOnly_registerItemsFrom (labels : ItemLabels) (index : Nat)
    (items : List FieldItem) :
    Walk.LabelsOnly (context.registerItemsFrom path labels index items) := by
  induction items generalizing index with
  | nil => simp [registerItemsFrom]
  | cons item rest ih =>
      unfold registerItemsFrom registerItem
      cases item.label <;> simp [ih]

@[simp] theorem labelsOnly_registerItems (node : FieldNode) (type : TypeDescriptor) :
    Walk.LabelsOnly (context.registerItems path node type) := by
  unfold registerItems
  simp

@[simp] theorem labelsOnly_registerTitle (contentType : ContentType) :
    Walk.LabelsOnly (context.registerTitle path contentType) := by
  unfold registerTitle
  simp

@[simp] theorem labelsOnly_compileTab (claims : Claims) (node : FieldNode) :
    Walk.LabelsOnly (context.compileTab path claims node) := by
  unfold compileTab
  simp

end PassContext

/-! ## Labels of nested forms -/

namespace FlexForm

variable {context : PassContext} {path : LanguagePath} {form : String}

@[simp] theorem labelsOnly_leaf (place : Place) (node : FieldNode) :
    Walk.LabelsOnly (leaf context path form place node) := by
  unfold leaf
  simp

@[simp] theorem labelsOnly_containerElements (taken : List String) (nodes : List FieldNode) :
    Walk.LabelsOnly (containerElements context path form taken nodes) := by
  induction nodes generalizing taken with
  | nil => simp [containerElements]
  | cons node rest ih => simp [containerElements, ih]

@[simp] theorem labelsOnly_containers (key : String) (taken : List String)
    (nodes : List FieldNode) :
    Walk.LabelsOnly (containers context path form key taken nodes) := by
  induction nodes generalizing taken with
  | nil => simp [containers]
  | cons node rest ih => simp [containers, ih]

@[simp] theorem labelsOnly_sectionElement (node : FieldNode) (identifier : String) :
    Walk.LabelsOnly (sectionElement context path form node identifier) := by
  unfold sectionElement
  simp

@[simp] theorem labelsOnly_sheetElements (taken : List String) (nodes : List FieldNode) :
    Walk.LabelsOnly (sheetElements context path form taken nodes) := by
  induction nodes generalizing taken with
  | nil => simp [sheetElements]
  | cons node rest ih => simp [sheetElements, ih]

@[simp] theorem labelsOnly_sheetTexts (sheet : FieldNode) (identifier : String) :
    Walk.LabelsOnly (sheetTexts context path sheet identifier) := by
  unfold sheetTexts
  simp

@[simp] theorem labelsOnly_sheets (sheetsTaken leavesTaken : List String)
    (nodes : List FieldNode) :
    Walk.LabelsOnly (sheets context path form sheetsTaken leavesTaken nodes) := by
  induction nodes generalizing sheetsTaken leavesTaken with
  | nil => simp [sheets]
  | cons sheet rest ih => simp [sheets, ih]

/-- A nested form opens no pass, however it is built. -/
@[simp] theorem labelsOnly_expand (nodes : List FieldNode) :
    Walk.LabelsOnly (expand context path form nodes) := by
  unfold expand
  split <;> simp

end FlexForm
end ContentSchema
