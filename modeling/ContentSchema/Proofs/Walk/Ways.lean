import ContentSchema.Proofs.Language.Steps

/-!
# Ways to the texts of a field

The keys that a field registers for itself lie one step or several steps below its
position: one for its label and its description, more for the labels of its items.
Two of these ways are equal only where two items are keyed alike.

* `FieldNode.labelledItems` are the labels of the items of a field.
* `PassContext.LabelWay` are the ways to the texts of a field.
* `PassContext.LabelWay.text_eq` says when a way leads to one text only.

What an item is keyed by may have dots, so the ways to items have no fixed length.
-/

namespace ContentSchema

/-! ## Labelled items -/

/-- The labels of items that stand at consecutive places, each with what its item is
keyed by. -/
def labelledItemsFrom (labels : ItemLabels) (index : Nat) :
    List FieldItem → List (String × String)
  | [] => []
  | item :: rest =>
      (item.label.map fun label => (item.key labels index, label)).toList ++
        labelledItemsFrom labels (index + 1) rest

namespace FieldNode

/-- The labels of the items of a field, if its type has items. -/
def labelledItems (node : FieldNode) (type : TypeDescriptor) : List (String × String) :=
  if type.items = .none then [] else labelledItemsFrom type.items 0 node.items

/-- Items of the field that are keyed alike are labelled alike. -/
def ItemsAgree (node : FieldNode) (type : TypeDescriptor) : Prop :=
  ∀ first ∈ node.labelledItems type, ∀ second ∈ node.labelledItems type,
    first.1 = second.1 → first.2 = second.2

instance (node : FieldNode) (type : TypeDescriptor) : Decidable (node.ItemsAgree type) :=
  inferInstanceAs (Decidable (∀ first ∈ node.labelledItems type, ∀ second ∈ _, _ → _))

end FieldNode

namespace PassContext

variable {path : LanguagePath} {node : FieldNode} {type : TypeDescriptor}
  {way other : List String} {text text' : String}

theorem itemKeysFrom_eq (labels : ItemLabels) (index : Nat) (items : List FieldItem) :
    itemKeysFrom path labels index items = (labelledItemsFrom labels index items).map
      fun item => path.entry ("items." ++ item.1 ++ ".label") item.2 := by
  induction items generalizing index with
  | nil => rfl
  | cons item rest ih =>
      rw [itemKeysFrom, labelledItemsFrom, List.map_append, ih]
      cases item.label <;> rfl

theorem itemKeys_eq :
    itemKeys path node type = (node.labelledItems type).map fun item =>
      path.entry ("items." ++ item.1 ++ ".label") item.2 := by
  unfold itemKeys FieldNode.labelledItems
  split
  · rfl
  · exact itemKeysFrom_eq _ _ _

/-- The steps to the label of an item. -/
theorem split_item (key : String) :
    Text.split '.' ("items." ++ key ++ ".label") =
      "items" :: (Text.split '.' key ++ ["label"]) := by
  rw [String.append_assoc, Text.split_word_append "items" "items." (by decide) (by decide),
    Text.split_append_word "label" ".label" (by decide) (by decide)]

/-- The labels of two items of a field have one path exactly when the items are keyed
alike. -/
theorem pathFor_item_eq_iff (path : LanguagePath) (first second : String) :
    path.pathFor ("items." ++ first ++ ".label") =
      path.pathFor ("items." ++ second ++ ".label") ↔ first = second := by
  constructor
  · intro hPaths
    have hKeys : (path.entry ("items." ++ first ++ ".label") "").key =
        (path.entry ("items." ++ second ++ ".label") "").key := by
      have hChars := congrArg String.toList hPaths
      simp only [LanguagePath.pathFor, String.toList_append, List.append_cancel_left_eq] at hChars
      exact String.toList_inj.mp hChars
    rw [LanguageKey.key_eq_iff, path.steps_entry, path.steps_entry, split_item, split_item] at hKeys
    have hSteps := List.cons.inj (List.append_cancel_left hKeys)
    exact Text.split_injective (List.append_cancel_right hSteps.2)
  · rintro rfl
    rfl

/-! ## Ways -/

/-- The ways from the position of a field to its own texts, with the texts. -/
inductive LabelWay (node : FieldNode) (type : TypeDescriptor) : List String → String → Prop where
  | label : LabelWay node type ["label"] (node.label.getD node.identifierText)
  | description {text : String} (hText : node.description = some text) :
      LabelWay node type ["description"] text
  | item {key text : String} (hItem : (key, text) ∈ node.labelledItems type) :
      LabelWay node type ("items" :: (Text.split '.' key ++ ["label"])) text

/-- Every key of a field lies at the end of one of its ways. -/
theorem exists_labelWay {key : LanguageKey}
    (hKey : key ∈ labelKeys path node type ++ itemKeys path node type) :
    ∃ way, LabelWay node type way key.default ∧ key.steps = path.steps ++ way := by
  rcases List.mem_append.mp hKey with hLabel | hItem
  · unfold labelKeys at hLabel
    split at hLabel
    · contradiction
    · rcases List.mem_cons.mp hLabel with rfl | hDescription
      · refine ⟨_, .label, ?_⟩
        rw [path.steps_entry, Text.split_of_dotless (by decide)]
      · obtain ⟨text, hText, rfl⟩ := Option.map_eq_some_iff.mp (Option.mem_toList.mp hDescription)
        refine ⟨_, .description hText, ?_⟩
        rw [path.steps_entry, Text.split_of_dotless (by decide)]
  · rw [itemKeys_eq] at hItem
    obtain ⟨item, hListed, rfl⟩ := List.mem_map.mp hItem
    exact ⟨_, .item hListed, by rw [path.steps_entry, split_item]⟩

theorem LabelWay.ne_nil (hWay : LabelWay node type way text) : way ≠ [] := by
  cases hWay <;> simp

/-- No text of a field lies two steps away. -/
theorem LabelWay.ne_pair {step last : String} (hWay : LabelWay node type way text) :
    way ≠ [step, last] := by
  cases hWay with
  | label => simp
  | description hText => simp
  | @item key _ hItem =>
      intro hSame
      have hSteps := congrArg List.length (List.cons.inj hSame).2
      simp [Text.split_ne_nil key] at hSteps

/-- A way of one step leads to the label or to the description. -/
theorem LabelWay.of_singleton {step : String} (hWay : LabelWay node type way text)
    (hSame : way = [step]) :
    step = "label" ∨ step = "description" ∧ node.description = some text := by
  cases hWay with
  | label => exact .inl (List.cons.inj hSame).1.symm
  | description hText => exact .inr ⟨(List.cons.inj hSame).1.symm, hText⟩
  | item hItem => simp at hSame

/-- A longer way leads to the label of an item. -/
theorem LabelWay.of_cons {step : String} {rest : List String} (hWay : LabelWay node type way text)
    (hSame : way = step :: rest) (hRest : rest ≠ []) :
    step = "items" ∧ node.labelledItems type ≠ [] := by
  cases hWay with
  | label => exact absurd (List.cons.inj hSame).2.symm hRest
  | description hText => exact absurd (List.cons.inj hSame).2.symm hRest
  | item hItem => exact ⟨(List.cons.inj hSame).1.symm, List.ne_nil_of_mem hItem⟩

/-- One way leads to one text, if items that are keyed alike are labelled alike. -/
theorem LabelWay.text_eq (hAgree : node.ItemsAgree type) (hFirst : LabelWay node type way text)
    (hSecond : LabelWay node type other text') (hSame : way = other) : text = text' := by
  cases hFirst with
  | label =>
      cases hSecond with
      | label => rfl
      | description hText => simp at hSame
      | item hItem => simp at hSame
  | description hText =>
      cases hSecond with
      | label => simp at hSame
      | description hText' => exact Option.some.inj (hText.symm.trans hText')
      | item hItem => simp at hSame
  | item hItem =>
      cases hSecond with
      | label => simp at hSame
      | description hText => simp at hSame
      | item hItem' =>
          have hKeys := List.append_cancel_right (List.cons.inj hSame).2
          exact hAgree _ hItem _ hItem' (Text.split_injective hKeys)

end PassContext
end ContentSchema
