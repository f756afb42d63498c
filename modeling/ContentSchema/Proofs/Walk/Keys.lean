import ContentSchema.Compiler.Field
import ContentSchema.Proofs.Walk.Result

/-!
# Keys that walks register

A walk that succeeds registers keys that are known beforehand: those of its steps
in order, all for the document that it belongs to.  `Walk.Registers` says which
keys these are, and it is put together along a chain, so that the walks above
never look at emissions again.

* `LanguagePath.entry` is a key at a position.
* `Walk.Registers.bind` puts two steps together, `Walk.Registers.skip` and
  `Walk.Registers.last` are for a step that registers nothing.
* `PassContext.labelKeys` and `PassContext.itemKeys` are what a field registers
  for itself and for its items.

A walk that fails registers the beginning of such a list: that is NOT told here.
-/

namespace ContentSchema

/-! ## Keys at a position -/

namespace LanguagePath

/-- The key of a text at a position. -/
def entry (path : LanguagePath) (suffix text : String) : LanguageKey :=
  ⟨path.keyFor suffix, path.pathFor suffix, text⟩

/-- The key of a text at a position, if there is a text. -/
def entry? (path : LanguagePath) (suffix : String) (text : Option String) : List LanguageKey :=
  (text.map (path.entry suffix)).toList

end LanguagePath

/-- The key stands in the given language file. -/
def LanguageKey.StandsIn (key : LanguageKey) (file : String) : Prop :=
  key.path = file ++ ":" ++ key.key

theorem LanguagePath.standsIn_entry (path : LanguagePath) (suffix text : String) :
    (path.entry suffix text).StandsIn path.base := rfl

theorem LanguagePath.standsIn_entry? {path : LanguagePath} {suffix : String}
    {text : Option String} : ∀ key ∈ path.entry? suffix text, key.StandsIn path.base := by
  intro key hKey
  obtain ⟨text, _, rfl⟩ := Option.map_eq_some_iff.mp (Option.mem_toList.mp hKey)
  exact path.standsIn_entry suffix text

/-! ## Keys of a chain -/

namespace Walk

variable {α β : Type} {walk : Walk α} {next : α → Walk β} {a : α} {name : String}
  {keys first second : List LanguageKey}

/-- The walk registers these keys and no others, in order, for the document of
the given name. -/
def Registers (walk : Walk α) (name : String) (keys : List LanguageKey) : Prop :=
  walk.emission.keys = keys.map fun key => (name, key)

@[simp] theorem registers_pure (a : α) : (pure a : Walk α).Registers name [] := rfl

@[simp] theorem registers_liftM (result : Except CompileError α) :
    (liftM result : Walk α).Registers name [] := rfl

/-- Which keys are registered does not depend on the name that goes with them. -/
theorem Registers.map_snd (hKeys : walk.Registers name keys) :
    walk.emission.keys.map Prod.snd = keys := by
  rw [hKeys, List.map_map]
  exact List.map_id keys

theorem Registers.self (hKeys : walk.Registers name keys) :
    walk.Registers name (walk.emission.keys.map Prod.snd) := by
  rw [hKeys.map_snd]
  exact hKeys

/-- Two steps in a row register the keys of both. -/
theorem Registers.bind (hWalk : walk.result = .ok a) (hFirst : walk.Registers name first)
    (hSecond : (next a).Registers name second) :
    (walk >>= next).Registers name (first ++ second) := by
  unfold Registers at *
  rw [bind_of_ok hWalk, Emission.keys_append, hFirst, hSecond, List.map_append]

/-- A step that registers nothing may come first. -/
theorem Registers.skip (hWalk : walk.result = .ok a) (hFirst : walk.Registers name [])
    (hNext : (next a).Registers name keys) : (walk >>= next).Registers name keys :=
  hFirst.bind hWalk hNext

/-- A step that registers nothing may come last. -/
theorem Registers.last (hWalk : walk.result = .ok a) (hFirst : walk.Registers name keys)
    (hNext : (next a).Registers name []) : (walk >>= next).Registers name keys := by
  rw [← List.append_nil keys]
  exact hFirst.bind hWalk hNext

theorem Registers.map {f : α → β} (hWalk : walk.result = .ok a)
    (hKeys : walk.Registers name keys) : (f <$> walk).Registers name keys := by
  rw [← bind_pure_comp]
  exact hKeys.last hWalk (registers_pure _)

end Walk

/-! ## Labels of fields and items -/

namespace PassContext

/-- The keys of the label and the description of a field. -/
def labelKeys (path : LanguagePath) (node : FieldNode) (type : TypeDescriptor) :
    List LanguageKey :=
  if type.storage = .passthrough then []
  else path.entry "label" (node.label.getD node.identifierText) ::
    path.entry? "description" node.description

/-- The keys of the labels of items that stand at consecutive places. -/
def itemKeysFrom (path : LanguagePath) (labels : ItemLabels) (index : Nat) :
    List FieldItem → List LanguageKey
  | [] => []
  | item :: rest =>
      path.entry? ("items." ++ item.key labels index ++ ".label") item.label ++
        itemKeysFrom path labels (index + 1) rest

/-- The keys of the labels of the items of a field, if the type has items. -/
def itemKeys (path : LanguagePath) (node : FieldNode) (type : TypeDescriptor) :
    List LanguageKey :=
  if type.items = .none then [] else itemKeysFrom path type.items 0 node.items

/-- The keys of the title and the description of the content type of a pass. -/
def titleKeys (context : PassContext) (path : LanguagePath) : List LanguageKey :=
  if context.isRootTable then
    [path.entry "title" context.displayTitle,
      path.entry "description" (context.description.getD "")]
  else []

theorem standsIn_labelKeys {path : LanguagePath} {node : FieldNode} {type : TypeDescriptor} :
    ∀ key ∈ labelKeys path node type, key.StandsIn path.base := by
  unfold labelKeys
  split
  · simp
  · exact List.forall_mem_cons.mpr ⟨path.standsIn_entry _ _, LanguagePath.standsIn_entry?⟩

theorem standsIn_itemKeys {path : LanguagePath} {node : FieldNode} {type : TypeDescriptor} :
    ∀ key ∈ itemKeys path node type, key.StandsIn path.base := by
  have hFrom (index : Nat) :
      ∀ key ∈ itemKeysFrom path type.items index node.items, key.StandsIn path.base := by
    induction node.items generalizing index with
    | nil => simp [itemKeysFrom]
    | cons item rest ih =>
        exact List.forall_mem_append.mpr ⟨LanguagePath.standsIn_entry?, ih (index + 1)⟩
  unfold itemKeys
  split
  · simp
  · exact hFrom 0

theorem standsIn_titleKeys {context : PassContext} {path : LanguagePath} :
    ∀ key ∈ context.titleKeys path, key.StandsIn path.base := by
  unfold titleKeys
  split
  · simp [LanguagePath.standsIn_entry]
  · simp

variable {context : PassContext} {path : LanguagePath}

@[simp] theorem registers_register (suffix default : String) :
    (context.register path suffix default).Registers context.document.name
      [path.entry suffix default] := rfl

@[simp] theorem registers_registerOptional (suffix : String) (text : Option String) :
    (context.registerOptional path suffix text).Registers context.document.name
      (path.entry? suffix text) := by
  cases text <;> rfl

@[simp] theorem registers_registerLabels (node : FieldNode) (type : TypeDescriptor) :
    (context.registerLabels path node node.identifierText type).Registers context.document.name
      (labelKeys path node type) := by
  unfold registerLabels labelKeys
  split
  · rfl
  · rw [← List.singleton_append]
    refine (registers_register _ _).bind (register_result _ _ _ _) ?_
    exact (registers_registerOptional _ _).last (registerOptional_result _ _ _ _)
      (Walk.registers_pure _)

@[simp] theorem registers_registerItem (labels : ItemLabels) (index : Nat) (item : FieldItem) :
    (context.registerItem path labels index item).Registers context.document.name
      (path.entry? ("items." ++ item.key labels index ++ ".label") item.label) := by
  unfold registerItem
  cases item.label with
  | none => rfl
  | some label =>
      exact (registers_register _ _).last (register_result _ _ _ _) (Walk.registers_pure _)

@[simp] theorem registers_registerItemsFrom (labels : ItemLabels) (index : Nat)
    (items : List FieldItem) :
    (context.registerItemsFrom path labels index items).Registers context.document.name
      (itemKeysFrom path labels index items) := by
  induction items generalizing index with
  | nil => rfl
  | cons item rest ih =>
      unfold registerItemsFrom
      refine (registers_registerItem labels index item).bind (registerItem_result _ _ _ _ _) ?_
      exact (ih (index + 1)).last (registerItemsFrom_result _ _ _ _ _) (Walk.registers_pure _)

@[simp] theorem registers_registerItems (node : FieldNode) (type : TypeDescriptor) :
    (context.registerItems path node type).Registers context.document.name
      (itemKeys path node type) := by
  unfold registerItems itemKeys
  by_cases hNone : type.items = .none
  · rw [if_pos hNone, if_pos (by simp [hNone])]
    exact Walk.registers_pure _
  · rw [if_neg hNone]
    by_cases hItems : node.items = []
    · rw [hItems, if_pos (by simp)]
      exact Walk.registers_pure _
    · rw [if_neg (by simp [hNone, hItems])]
      exact (registers_registerItemsFrom _ _ _).last (registerItemsFrom_result _ _ _ _ _)
        (Walk.registers_pure _)

@[simp] theorem registers_registerTitle (contentType : ContentType) :
    (context.registerTitle path contentType).Registers context.document.name
      (context.titleKeys path) := by
  unfold registerTitle titleKeys
  split
  · refine (registers_register "title" _).bind (register_result _ _ _ _) ?_
    exact (registers_register "description" _).last (register_result _ _ _ _)
      (Walk.registers_pure _)
  · exact Walk.registers_pure _

end PassContext
end ContentSchema
