import ContentSchema.Loading.Error
import ContentSchema.Proofs.Walk.Result

/-!
# Reading from a tree of files

An action that only looks at files finds the same whenever it is run, so a chain
of such actions can be told by what each of them finds.

* `Load.on` is what an action finds on a tree, and `Load.ReadOnly` says that it
  leaves the tree as it is.
* `Load.on_bind` and its companions say what chains and loops of actions find.

The equations hold for actions that fail as well; an action that writes does NOT
satisfy them.
-/

namespace ContentSchema
namespace Load

variable {α β γ : Type} {tree : FileTree}

/-- What an action finds on a tree. -/
def on (tree : FileTree) (action : Load OnTree α) : Except LoadError α :=
  (action.run.run tree).1

/-- The action leaves every tree as it is. -/
def ReadOnly (action : Load OnTree α) : Prop :=
  ∀ tree, (action.run.run tree).2 = tree

/-! ## Single actions -/

@[simp] theorem on_pure (a : α) : on tree (pure a) = .ok a := rfl

@[simp] theorem on_throw (e : LoadError) : on tree (throw e : Load OnTree α) = .error e := rfl

@[simp] theorem on_ofExcept (result : Except LoadError α) :
    on tree (ofExcept result) = result := rfl

@[simp] theorem on_names (path : String) :
    on tree (ofFile (Files.names path)) = (tree.names path).mapError LoadError.file := rfl

@[simp] theorem on_isDirectory (path : String) :
    on tree (always (Files.isDirectory path)) =
      .ok (OnTree.leadsTo (fun found => found matches .directory _) path tree) := rfl

@[simp] theorem on_isFile (path : String) :
    on tree (always (Files.isFile path)) =
      .ok (OnTree.leadsTo (fun found => found matches .file _) path tree) := rfl

@[simp] theorem on_content (path : String) :
    on tree (always (Files.content path)) = .ok (tree.content path) := rfl

@[simp] theorem on_text (path : String) :
    on tree (text path) = ((tree.content path).bind textOf).mapError LoadError.file := rfl

theorem readOnly_pure (a : α) : ReadOnly (pure a) := fun _ => rfl

theorem readOnly_throw (e : LoadError) : ReadOnly (throw e : Load OnTree α) := fun _ => rfl

theorem readOnly_ofExcept (result : Except LoadError α) : ReadOnly (ofExcept result) :=
  fun _ => rfl

theorem readOnly_names (path : String) :
    ReadOnly (ofFile (Files.names path) : Load OnTree (List String)) := fun _ => rfl

theorem readOnly_isDirectory (path : String) :
    ReadOnly (always (Files.isDirectory path)) := fun _ => rfl

theorem readOnly_isFile (path : String) : ReadOnly (always (Files.isFile path)) := fun _ => rfl

theorem readOnly_content (path : String) : ReadOnly (always (Files.content path)) := fun _ => rfl

theorem readOnly_text (path : String) : ReadOnly (text path) := fun _ => rfl

/-! ## Chains -/

/-- An action after another one is run on what that one leaves, if it succeeds. -/
theorem run_bind (action : Load OnTree α) (next : α → Load OnTree β) :
    (action >>= next).run.run tree =
      match action.run.run tree with
      | (.ok a, left) => (next a).run.run left
      | (.error e, left) => (.error e, left) := by
  show (ExceptT.bind action next).run.run tree = _
  simp only [ExceptT.bind, ExceptT.run_mk, StateT.run_bind]
  show (ExceptT.bindCont next (action.run.run tree).1).run (action.run.run tree).2 = _
  rcases action.run.run tree with ⟨_ | a, left⟩ <;> rfl

variable {action : Load OnTree α} {next : α → Load OnTree β}

/-- After an action that only reads, the next one sees the same tree. -/
theorem on_bind (hAction : action.ReadOnly) :
    on tree (action >>= next) = on tree action >>= fun a => on tree (next a) := by
  have hLeft := hAction tree
  unfold on
  rw [run_bind]
  rcases hRun : action.run.run tree with ⟨_ | a, left⟩
  · rfl
  · rw [hRun] at hLeft
    obtain rfl : left = tree := hLeft
    rfl

theorem ReadOnly.bind (hAction : action.ReadOnly) (hNext : ∀ a, (next a).ReadOnly) :
    (action >>= next).ReadOnly := by
  intro tree
  have hLeft := hAction tree
  rw [run_bind]
  rcases hRun : action.run.run tree with ⟨_ | a, left⟩
  · rw [hRun] at hLeft
    exact hLeft
  · rw [hRun] at hLeft
    obtain rfl : left = tree := hLeft
    exact hNext a left

/-! ## Loops -/

section Loops

variable {items : List α}

theorem readOnly_mapM {visit : α → Load OnTree β} (hVisit : ∀ a, (visit a).ReadOnly) :
    ReadOnly (items.mapM visit) := by
  induction items with
  | nil => exact readOnly_pure _
  | cons item rest ih =>
      rw [List.mapM_cons]
      exact (hVisit item).bind fun _ => ih.bind fun _ => readOnly_pure _

/-- A loop over actions that only read sees the same tree in every round. -/
theorem on_mapM {visit : α → Load OnTree β} (hVisit : ∀ a, (visit a).ReadOnly) :
    on tree (items.mapM visit) = items.mapM fun a => on tree (visit a) := by
  induction items with
  | nil => rfl
  | cons item rest ih =>
      simp only [List.mapM_cons, on_bind (hVisit item), on_bind (readOnly_mapM hVisit), ih]
      rfl

theorem readOnly_foldlM {visit : β → α → Load OnTree β}
    (hVisit : ∀ b a, (visit b a).ReadOnly) (b : β) : ReadOnly (items.foldlM visit b) := by
  induction items generalizing b with
  | nil => exact readOnly_pure _
  | cons item rest ih =>
      rw [List.foldlM_cons]
      exact (hVisit b item).bind fun _ => ih _

theorem on_foldlM {visit : β → α → Load OnTree β} (hVisit : ∀ b a, (visit b a).ReadOnly)
    (b : β) :
    on tree (items.foldlM visit b) = items.foldlM (fun b a => on tree (visit b a)) b := by
  induction items generalizing b with
  | nil => rfl
  | cons item rest ih =>
      simp only [List.foldlM_cons, on_bind (hVisit b item), ih]

theorem filterAuxM_cons (test : α → Load OnTree Bool) (item : α) (rest kept : List α) :
    (item :: rest).filterAuxM test kept =
      test item >>= fun holds => rest.filterAuxM test (bif holds then item :: kept else kept) :=
  rfl

/-- A question that is asked of every item. -/
structure Asks (ask : α → Load OnTree Bool) (tree : FileTree) (test : α → Bool) : Prop where
  readOnly : ∀ a, (ask a).ReadOnly
  answer : ∀ a, on tree (ask a) = .ok (test a)

theorem readOnly_filterAuxM {ask : α → Load OnTree Bool} (hAsk : ∀ a, (ask a).ReadOnly)
    (kept : List α) : ReadOnly (items.filterAuxM ask kept) := by
  induction items generalizing kept with
  | nil => exact readOnly_pure _
  | cons item rest ih =>
      rw [filterAuxM_cons]
      exact (hAsk item).bind fun _ => ih _

theorem readOnly_filterM {ask : α → Load OnTree Bool} (hAsk : ∀ a, (ask a).ReadOnly) :
    ReadOnly (items.filterM ask) :=
  (readOnly_filterAuxM hAsk []).bind fun _ => readOnly_pure _

/-- Items are filtered by the answers to a question. -/
theorem on_filterM {ask : α → Load OnTree Bool} {test : α → Bool} (hAsk : Asks ask tree test) :
    on tree (items.filterM ask) = .ok (items.filter test) := by
  -- The items that are kept are collected in reverse.
  have hAux (kept : List α) :
      on tree (items.filterAuxM ask kept) = .ok ((items.filter test).reverse ++ kept) := by
    induction items generalizing kept with
    | nil => rfl
    | cons item rest ih =>
        rw [filterAuxM_cons, on_bind (hAsk.readOnly item), hAsk.answer item]
        show on tree (rest.filterAuxM ask (bif test item then item :: kept else kept)) = _
        rw [ih]
        cases hItem : test item <;> simp [hItem]
  unfold List.filterM
  rw [on_bind (readOnly_filterAuxM hAsk.readOnly []), hAux [], List.append_nil]
  exact congrArg Except.ok (List.reverse_reverse _)

end Loops

end Load

/-! ## Results -/

theorem mapError_eq_ok_iff {ε ε' α : Type} {result : Except ε α} {name : ε → ε'} {a : α} :
    result.mapError name = .ok a ↔ result = .ok a := by
  cases result <;> simp [Except.mapError]

end ContentSchema
