import ContentSchema.Compiler.Labels
import Mathlib.Data.List.Forall2

/-!
# Results of walks

How a chain of steps ends, told from how its steps end.  A chain ends well
exactly when every step does, so `= .ok` is pushed through binds until only the
steps that can fail are left; registering a label never fails.
-/

namespace ContentSchema

/-- Two steps in a row end well exactly when both do. -/
theorem bind_eq_ok_iff {ε α β : Type} {first : Except ε α} {next : α → Except ε β} {b : β} :
    first >>= next = .ok b ↔ ∃ a, first = .ok a ∧ next a = .ok b := by
  cases first with
  | error e => simp [bind, Except.bind]
  | ok a => simp [bind, Except.bind]

/-- A step that leaves something ends well. -/
theorem exists_eq_ok_of_isSome {ε α : Type} {step : Except ε α}
    (hSome : step.toOption.isSome = true) : ∃ a, step = .ok a := by
  cases step with
  | error e => contradiction
  | ok a => exact ⟨a, rfl⟩

/-- A step that leaves this ends well with it. -/
theorem eq_ok_of_toOption_eq_some {ε α : Type} {step : Except ε α} {a : α}
    (hSome : step.toOption = some a) : step = .ok a := by
  cases step with
  | error e => contradiction
  | ok b => exact congrArg Except.ok (Option.some.inj hSome)

/-- A step that leaves something of which this can be said ends well with it. -/
theorem exists_eq_ok_of_map_eq_some {ε α β : Type} {step : Except ε α} {tell : α → β} {b : β}
    (hSome : step.toOption.map tell = some b) : ∃ a, step = .ok a ∧ tell a = b := by
  obtain ⟨a, hLeft, hTold⟩ := Option.map_eq_some_iff.mp hSome
  exact ⟨a, eq_ok_of_toOption_eq_some hLeft, hTold⟩

/-- A list of steps ends well exactly when each of them does. -/
theorem exists_mapM_eq_ok_iff {ε α β : Type} {step : α → Except ε β} {items : List α} :
    (∃ results, items.mapM step = .ok results) ↔
      ∀ item ∈ items, ∃ result, step item = .ok result := by
  induction items with
  | nil => simp [pure, Except.pure]
  | cons item rest ih =>
      simp only [List.mapM_cons, bind_eq_ok_iff, List.mem_cons, forall_eq_or_imp, ← ih]
      constructor
      · rintro ⟨_, result, hResult, results, hResults, _⟩
        exact ⟨⟨result, hResult⟩, results, hResults⟩
      · rintro ⟨⟨result, hResult⟩, results, hResults⟩
        exact ⟨_, result, hResult, results, hResults, rfl⟩

/-- Steps that all end well leave one thing each. -/
theorem mapM_eq_ok_iff_forall₂ {ε α β : Type} {step : α → Except ε β} {items : List α}
    {results : List β} :
    items.mapM step = .ok results ↔
      List.Forall₂ (fun item result => step item = .ok result) items results := by
  induction items generalizing results with
  | nil =>
      rw [List.forall₂_nil_left_iff]
      exact ⟨fun hMade => (Except.ok.inj hMade).symm, fun hNil => by rw [hNil]; rfl⟩
  | cons item rest ih =>
      simp only [List.mapM_cons, bind_eq_ok_iff, List.forall₂_cons_left_iff, ih]
      constructor
      · rintro ⟨first, hFirst, others, hOthers, hMade⟩
        exact ⟨first, others, hFirst, hOthers, (Except.ok.inj hMade).symm⟩
      · rintro ⟨first, others, hFirst, hOthers, rfl⟩
        exact ⟨first, hFirst, others, hOthers, rfl⟩

/-- What is written item by item is read item by item. -/
theorem mapM_map_eq_ok_map {ε α β γ : Type} {write : α → β} {read : β → Except ε γ} {again : α → γ}
    {items : List α} (hItems : ∀ item ∈ items, read (write item) = .ok (again item)) :
    (items.map write).mapM read = .ok (items.map again) := by
  induction items with
  | nil => rfl
  | cons item rest ih =>
      obtain ⟨hItem, hRest⟩ := List.forall_mem_cons.mp hItems
      rw [List.map_cons, List.mapM_cons, hItem, ih hRest]
      rfl

/-- What is written item by item is read again when each item is. -/
theorem mapM_map_eq_ok {ε α β : Type} {write : α → β} {read : β → Except ε α} {items : List α}
    (hItems : ∀ item ∈ items, read (write item) = .ok item) :
    (items.map write).mapM read = .ok items :=
  (mapM_map_eq_ok_map hItems).trans (congrArg Except.ok (List.map_id' items))

/-- What a list of steps leaves is what its steps leave. -/
theorem exists_of_mem_mapM {ε α β : Type} {step : α → Except ε β} {items : List α}
    {results : List β} (hSteps : items.mapM step = .ok results) {result : β}
    (hResult : result ∈ results) : ∃ item ∈ items, step item = .ok result := by
  induction items generalizing results with
  | nil =>
      cases hSteps
      cases hResult
  | cons item rest ih =>
      simp only [List.mapM_cons, bind_eq_ok_iff] at hSteps
      obtain ⟨first, hFirst, others, hOthers, hMade⟩ := hSteps
      cases hMade
      rcases List.mem_cons.mp hResult with rfl | hLater
      · exact ⟨item, List.mem_cons_self, hFirst⟩
      · obtain ⟨found, hFound, hStep⟩ := ih hOthers hLater
        exact ⟨found, List.mem_cons_of_mem _ hFound, hStep⟩

namespace Walk

variable {α β : Type}

@[simp] theorem ofExcept_result (result : Except CompileError α) :
    (ofExcept result).result = result := rfl

@[simp] theorem liftM_result (result : Except CompileError α) :
    (liftM result : Walk α).result = result := rfl

@[simp] theorem emit_result (emission : Emission) : (emit emission).result = .ok () := rfl

theorem map_result_eq_ok_iff {f : α → β} {walk : Walk α} {b : β} :
    (f <$> walk).result = .ok b ↔ ∃ a, walk.result = .ok a ∧ f a = b := by
  rw [← bind_pure_comp, bind_result_eq_ok_iff]
  simp

/-- A chain goes on with the result that its first walk has, if any. -/
theorem bind_congr_ok {walk : Walk α} {first second : α → Walk β}
    (hSame : ∀ a, walk.result = .ok a → first a = second a) :
    walk >>= first = walk >>= second := by
  cases hResult : walk.result with
  | error e => rw [bind_of_error hResult, bind_of_error hResult]
  | ok a => rw [bind_of_ok hResult, bind_of_ok hResult, hSame a hResult]

/-- A chain whose first walk depends on a condition. -/
theorem ite_bind {condition : Prop} [Decidable condition] {first second : Walk α}
    {next : α → Walk β} :
    (if condition then first >>= next else second >>= next) =
      (if condition then first else second) >>= next := by
  split <;> rfl

theorem ite_bind_result_eq_ok_iff {condition : Prop} [Decidable condition]
    {first second : Walk α} {next : α → Walk β} {b : β} :
    (if condition then first >>= next else second >>= next).result = .ok b ↔
      ∃ a, (if condition then first else second).result = .ok a ∧ (next a).result = .ok b := by
  rw [ite_bind]
  exact bind_result_eq_ok_iff

end Walk

namespace PassContext

@[simp] theorem fail_result {α : Type} (context : PassContext) (fault : Fault) :
    (context.fail fault : Walk α).result = .error (context.fault fault) := rfl

/-- A guard that fails lets nothing through. -/
theorem guard_result_eq_ok_iff {α : Type} {context : PassContext} {condition : Prop}
    [Decidable condition] {fault : Fault} {next : Walk α} {a : α} :
    (if condition then context.fail fault >>= fun _ : Unit => next else next).result = .ok a ↔
      ¬condition ∧ next.result = .ok a := by
  by_cases hCondition : condition
  · simp [hCondition, Walk.bind_result_eq_ok_iff]
  · simp [hCondition]

@[simp] theorem refer_result (childTable : String) (field : CompiledField) :
    (refer childTable field).result = .ok () := rfl

@[simp] theorem register_result (context : PassContext) (path : LanguagePath)
    (suffix default : String) :
    (context.register path suffix default).result = .ok (path.pathFor suffix) := rfl

@[simp] theorem registerOptional_result (context : PassContext) (path : LanguagePath)
    (suffix : String) (text : Option String) :
    (context.registerOptional path suffix text).result =
      .ok (text.map fun _ => path.pathFor suffix) := by
  cases text <;> rfl

/-- The path of the description of a field, if it has one that is shown. -/
def describedPath? (path : LanguagePath) (node : FieldNode) (type : TypeDescriptor) :
    Option String :=
  if type.storage = .passthrough then none
  else node.description.map fun _ => path.pathFor "description"

/-- The path of the label exists whatever the texts are. -/
@[simp] theorem registerLabels_result (context : PassContext) (path : LanguagePath)
    (node : FieldNode) (identifier : String) (type : TypeDescriptor) :
    (context.registerLabels path node identifier type).result =
      .ok (path.pathFor "label", describedPath? path node type) := by
  unfold registerLabels describedPath?
  split
  · rfl
  · cases node.description <;> rfl

/-- An item with the path of its label, if it has a label. -/
def registeredItem (path : LanguagePath) (labels : ItemLabels) (index : Nat)
    (item : FieldItem) : Value :=
  match item.label with
  | none => .object item.compiled
  | some _ => .object (Entries.insert "labelPath"
      (.string (path.pathFor ("items." ++ item.key labels index ++ ".label"))) item.compiled)

@[simp] theorem registerItem_result (context : PassContext) (path : LanguagePath)
    (labels : ItemLabels) (index : Nat) (item : FieldItem) :
    (context.registerItem path labels index item).result =
      .ok (registeredItem path labels index item) := by
  unfold registerItem registeredItem
  cases item.label <;> rfl

@[simp] theorem registerItemsFrom_result (context : PassContext) (path : LanguagePath)
    (labels : ItemLabels) (index : Nat) (items : List FieldItem) :
    (context.registerItemsFrom path labels index items).result =
      .ok (items.mapIdx fun offset item => registeredItem path labels (index + offset) item) := by
  induction items generalizing index with
  | nil => rfl
  | cons item rest ih =>
      simp only [registerItemsFrom, Walk.bind_result_eq_ok_iff, registerItem_result, ih,
        Except.ok.injEq, exists_eq_left', Walk.pure_result]
      simp [List.mapIdx_cons, Nat.add_comm, Nat.add_left_comm]

/-- The items of a field as compiled, if its type has items and there are any. -/
def registeredItems (path : LanguagePath) (node : FieldNode) (type : TypeDescriptor) :
    Option Value :=
  if type.items = .none || node.items.isEmpty then none
  else some (.list (node.items.mapIdx fun index item =>
    registeredItem path type.items index item))

@[simp] theorem registerItems_result (context : PassContext) (path : LanguagePath)
    (node : FieldNode) (type : TypeDescriptor) :
    (context.registerItems path node type).result = .ok (registeredItems path node type) := by
  unfold registerItems registeredItems
  split
  · rfl
  · rw [Walk.bind_result_eq_ok_iff]
    exact ⟨_, registerItemsFrom_result context path type.items 0 node.items, by simp⟩

end PassContext
end ContentSchema
