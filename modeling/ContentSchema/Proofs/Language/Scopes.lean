import ContentSchema.Proofs.Language.Path
import Mathlib.Data.List.TakeDrop

/-!
# Scopes of paths

Leaving a scope takes away whichever segment is last, so what a scope leaves behind is
settled by the whole program inside it.  Segments are only ever added and taken away
at the end: as long as no segment is taken away at a depth, the path up to that depth
stays as it is.

* `LanguagePath.passed` are the paths that a program comes through, and
  `LanguagePath.lowest` is the lowest depth among them.
* `LanguagePath.Scope.Balanced` says that the body of a scope never pops at the depth
  at which it starts, and ends at that depth.
* `LanguagePath.keeps_of_mem_passed` is the frame: what is below the lowest depth stays.
* `LanguagePath.scopes_restored` is about all programs, scopes and paths.

A body that ends at the depth at which it starts is NOT enough: it may have put other
segments in place of the ones it has taken away.
-/

namespace ContentSchema
namespace LanguagePath

/-- Programs are made move by move, and the body of a scope is a program as well. -/
theorem Step.induction {motive : List Step → Prop} (nil : motive [])
    (push : ∀ segment rest, motive rest → motive (.push segment :: rest))
    (pop : ∀ rest, motive rest → motive (.pop :: rest))
    (key : ∀ suffix rest, motive rest → motive (.key suffix :: rest))
    (scope : ∀ segment body rest, motive body → motive rest →
      motive (.scoped segment body :: rest)) :
    ∀ steps, motive steps
  | [] => nil
  | .push segment :: rest => push segment rest (Step.induction nil push pop key scope rest)
  | .pop :: rest => pop rest (Step.induction nil push pop key scope rest)
  | .key suffix :: rest => key suffix rest (Step.induction nil push pop key scope rest)
  | .scoped segment body :: rest =>
      scope segment body rest (Step.induction nil push pop key scope body)
        (Step.induction nil push pop key scope rest)

/-! ## What a program does to depths -/

mutual

/-- The depths at which a move takes away segments by `pop`.  What leaving a scope takes
away does not count. -/
def Step.popDepths (path : LanguagePath) : Step → List Nat
  | .push _ => []
  | .pop => [path.depth]
  | .key _ => []
  | .scoped segment body => popDepths (path.push segment) body

/-- The depths at which a program takes away segments by `pop`, in order. -/
def popDepths (path : LanguagePath) : List Step → List Nat
  | [] => []
  | step :: rest => Step.popDepths path step ++ popDepths (Step.run path step).1 rest

end

/-- The paths that a program comes through: the first one, and the path after every
move. -/
def passed (path : LanguagePath) (steps : List Step) : List LanguagePath :=
  path :: (runAll path steps).2.map Prod.snd

/-- The lowest depth that a program reaches. -/
def lowest (path : LanguagePath) (steps : List Step) : Nat :=
  ((passed path steps).map depth).min (by simp [passed])

/-- A scope that is entered at a path. -/
structure Scope where
  /-- The path at which the scope is entered. -/
  outside : LanguagePath
  segment : String
  body : List Step

mutual

/-- The scopes that a move enters. -/
def Step.scopes (path : LanguagePath) : Step → List Scope
  | .push _ => []
  | .pop => []
  | .key _ => []
  | .scoped segment body => ⟨path, segment, body⟩ :: scopes (path.push segment) body

/-- The scopes that a program enters, at all levels and in order. -/
def scopes (path : LanguagePath) : List Step → List Scope
  | [] => []
  | step :: rest => Step.scopes path step ++ scopes (Step.run path step).1 rest

end

namespace Scope

/-- The path at which the body starts. -/
def inside (scope : Scope) : LanguagePath :=
  scope.outside.push scope.segment

/-- The path at which the body ends. -/
def reached (scope : Scope) : LanguagePath :=
  (runAll scope.inside scope.body).1

/-- The path after the scope is left. -/
def left (scope : Scope) : LanguagePath :=
  (Step.run scope.outside (.scoped scope.segment scope.body)).1

/-- The body never pops at the depth at which it starts, and ends at that depth. -/
structure Balanced (scope : Scope) : Prop where
  not_mem_popDepths : scope.inside.depth ∉ popDepths scope.inside scope.body
  depth_reached : scope.reached.depth = scope.inside.depth

instance (scope : Scope) : Decidable scope.Balanced :=
  decidable_of_iff
    (scope.inside.depth ∉ popDepths scope.inside scope.body ∧
      scope.reached.depth = scope.inside.depth)
    ⟨fun h => ⟨h.1, h.2⟩, fun h => ⟨h.1, h.2⟩⟩

theorem left_eq (scope : Scope) : scope.left = scope.reached.pop := rfl

end Scope

section Steps

variable {path state : LanguagePath} {segment suffix : String} {body rest steps : List Step}
  {scope inner : Scope} {n : Nat}

@[simp] theorem depth_push : (path.push segment).depth = path.depth + 1 :=
  List.length_append

@[simp] theorem depth_pop : path.pop.depth = path.depth - 1 :=
  List.length_dropLast

theorem le_depth_push (hPath : n ≤ path.depth) : n ≤ (path.push segment).depth := by
  rw [depth_push]
  omega

/-- A segment that is taken away at another depth leaves the path no shallower. -/
theorem le_depth_pop (hPath : n ≤ path.depth) (hOther : path.depth ≠ n) :
    n ≤ path.pop.depth := by
  rw [depth_pop]
  omega

/-- Leaving takes away what entering has added. -/
@[simp] theorem pop_push : (path.push segment).pop = path := by
  simp [pop, push]

@[simp] theorem passed_nil : passed path [] = [path] := rfl

theorem mem_passed_push :
    state ∈ passed path (.push segment :: rest) ↔
      state = path ∨ state ∈ passed (path.push segment) rest := by
  simp [passed, runAll, Step.run]

theorem mem_passed_pop :
    state ∈ passed path (.pop :: rest) ↔ state = path ∨ state ∈ passed path.pop rest := by
  simp [passed, runAll, Step.run]

theorem mem_passed_key :
    state ∈ passed path (.key suffix :: rest) ↔ state ∈ passed path rest := by
  simp [passed, runAll, Step.run]

/-- A scope shows the paths of its body, but not the one at which the body starts. -/
theorem mem_passed_scoped :
    state ∈ passed path (.scoped segment body :: rest) ↔
      state = path ∨ state ∈ (runAll (path.push segment) body).2.map Prod.snd ∨
        state ∈ passed (Scope.left ⟨path, segment, body⟩) rest := by
  simp [passed, runAll, Step.run, Scope.left]

theorem popDepths_pop : popDepths path (.pop :: rest) = path.depth :: popDepths path.pop rest := by
  simp [popDepths, Step.popDepths, Step.run]

theorem mem_popDepths_scoped :
    n ∈ popDepths path (.scoped segment body :: rest) ↔
      n ∈ popDepths (path.push segment) body ∨
        n ∈ popDepths (Scope.left ⟨path, segment, body⟩) rest := by
  simp [popDepths, Step.popDepths, Scope.left]

theorem mem_scopes_scoped :
    scope ∈ scopes path (.scoped segment body :: rest) ↔
      scope = ⟨path, segment, body⟩ ∨ scope ∈ scopes (path.push segment) body ∨
        scope ∈ scopes (Scope.left ⟨path, segment, body⟩) rest := by
  simp [scopes, Step.scopes, Scope.left]

/-- A program ends at one of the paths that it comes through. -/
theorem runAll_mem_passed (path : LanguagePath) (steps : List Step) :
    (runAll path steps).1 ∈ passed path steps := by
  induction steps using Step.induction generalizing path with
  | nil => exact List.mem_singleton_self path
  | push segment rest ih => exact mem_passed_push.mpr (.inr (ih _))
  | pop rest ih => exact mem_passed_pop.mpr (.inr (ih _))
  | key suffix rest ih => exact mem_passed_key.mpr (ih _)
  | scope segment body rest _ ih => exact mem_passed_scoped.mpr (.inr (.inr (ih _)))

/-- The scopes inside a scope of a program are scopes of the program. -/
theorem mem_scopes_of_mem_scopes (hScope : scope ∈ scopes path steps)
    (hInner : inner ∈ scopes scope.inside scope.body) : inner ∈ scopes path steps := by
  induction steps using Step.induction generalizing path with
  | nil => cases hScope
  | push segment rest ih => exact ih hScope
  | pop rest ih => exact ih hScope
  | key suffix rest ih => exact ih hScope
  | scope segment body rest ihBody ih =>
      rw [mem_scopes_scoped] at hScope ⊢
      rcases hScope with rfl | hBody | hLater
      · exact .inr (.inl hInner)
      · exact .inr (.inl (ihBody hBody))
      · exact .inr (.inr (ih hLater))

/-! ## Depths that are not crossed -/

/-- A program that takes away no segment at a depth, neither by `pop` nor by leaving a
scope, stays at that depth or deeper. -/
theorem le_depth_of_mem_passed (hPath : n ≤ path.depth) (hPops : n ∉ popDepths path steps)
    (hScopes : ∀ inner ∈ scopes path steps, inner.reached.depth ≠ n) :
    ∀ state ∈ passed path steps, n ≤ state.depth := by
  induction steps using Step.induction generalizing path with
  | nil => simpa using hPath
  | push segment rest ih =>
      intro state hState
      rcases mem_passed_push.mp hState with rfl | hLater
      · exact hPath
      · exact ih (le_depth_push hPath) hPops hScopes state hLater
  | pop rest ih =>
      rw [popDepths_pop, List.mem_cons, not_or] at hPops
      intro state hState
      rcases mem_passed_pop.mp hState with rfl | hLater
      · exact hPath
      · exact ih (le_depth_pop hPath (Ne.symm hPops.1)) hPops.2 hScopes state hLater
  | key suffix rest ih =>
      intro state hState
      exact ih hPath hPops hScopes state (mem_passed_key.mp hState)
  | scope segment body rest ihBody ih =>
      rw [mem_popDepths_scoped, not_or] at hPops
      have hBody := ihBody (le_depth_push hPath) hPops.1 fun inner hInner =>
        hScopes inner (mem_scopes_scoped.mpr (.inr (.inl hInner)))
      -- Leaving the scope takes away one more segment, but not at this depth.
      have hLeft : n ≤ (Scope.left ⟨path, segment, body⟩).depth :=
        le_depth_pop (hBody _ (runAll_mem_passed _ _))
          (hScopes ⟨path, segment, body⟩ (mem_scopes_scoped.mpr (.inl rfl)))
      intro state hState
      rcases mem_passed_scoped.mp hState with rfl | hWithin | hLater
      · exact hPath
      · exact hBody state (List.mem_cons_of_mem _ hWithin)
      · exact ih hLeft hPops.2 (fun inner hInner =>
          hScopes inner (mem_scopes_scoped.mpr (.inr (.inr hInner)))) state hLater

/-- Where all scopes are balanced, no scope is entered above a depth at which the
program does not pop. -/
theorem le_depth_outside (hPath : n ≤ path.depth) (hPops : n ∉ popDepths path steps)
    (hBalanced : ∀ scope ∈ scopes path steps, scope.Balanced) :
    ∀ scope ∈ scopes path steps, n ≤ scope.outside.depth := by
  induction steps using Step.induction generalizing path with
  | nil => simp [scopes]
  | push segment rest ih => exact ih (le_depth_push hPath) hPops hBalanced
  | pop rest ih =>
      rw [popDepths_pop, List.mem_cons, not_or] at hPops
      exact ih (le_depth_pop hPath (Ne.symm hPops.1)) hPops.2 hBalanced
  | key suffix rest ih => exact ih hPath hPops hBalanced
  | scope segment body rest ihBody ih =>
      rw [mem_popDepths_scoped, not_or] at hPops
      have hHere := hBalanced ⟨path, segment, body⟩ (mem_scopes_scoped.mpr (.inl rfl))
      have hLeft : n ≤ (Scope.left ⟨path, segment, body⟩).depth := by
        rw [Scope.left_eq, depth_pop, hHere.depth_reached]
        show n ≤ (path.push segment).depth - 1
        rw [depth_push]
        omega
      intro scope hScope
      rcases mem_scopes_scoped.mp hScope with rfl | hBody | hLater
      · exact hPath
      · exact ihBody (le_depth_push hPath) hPops.1 (fun inner hInner =>
          hBalanced inner (mem_scopes_scoped.mpr (.inr (.inl hInner)))) scope hBody
      · exact ih hLeft hPops.2 (fun inner hInner =>
          hBalanced inner (mem_scopes_scoped.mpr (.inr (.inr hInner)))) scope hLater

end Steps

/-! ## Segments that stay -/

/-- The state is in the same file as the path, and has the same segments up to a
depth. -/
structure Keeps (n : Nat) (path state : LanguagePath) : Prop where
  base : state.base = path.base
  take_segments : state.segments.take n = path.segments.take n

section Keeps

variable {path state next : LanguagePath} {segment : String} {steps : List Step} {n : Nat}

theorem Keeps.refl (n : Nat) (path : LanguagePath) : path.Keeps n path := ⟨rfl, rfl⟩

theorem Keeps.trans (hState : path.Keeps n state) (hNext : state.Keeps n next) :
    path.Keeps n next :=
  ⟨hNext.base.trans hState.base, hNext.take_segments.trans hState.take_segments⟩

theorem keeps_push (hPath : n ≤ path.depth) : path.Keeps n (path.push segment) :=
  ⟨rfl, List.take_append_of_le_length hPath⟩

theorem keeps_pop (hPath : n ≤ path.pop.depth) : path.Keeps n path.pop := by
  refine ⟨rfl, ?_⟩
  have hShorter : n ≤ path.segments.length - 1 := depth_pop ▸ hPath
  show path.segments.dropLast.take n = path.segments.take n
  rw [List.dropLast_eq_take, List.take_take, Nat.min_eq_left hShorter]

/-- Paths that are no deeper than what stays are the same. -/
theorem Keeps.eq (hState : path.Keeps n state) (hPath : path.depth = n)
    (hDepth : state.depth = n) : state = path := by
  obtain ⟨base, segments⟩ := state
  obtain ⟨hBase, hTake⟩ := hState
  rw [List.take_of_length_le (Nat.le_of_eq hPath), List.take_of_length_le (Nat.le_of_eq hDepth)]
    at hTake
  subst hBase hTake
  rfl

/-- What is below all depths that a program reaches stays as it is throughout. -/
theorem keeps_of_mem_passed (hLow : ∀ state ∈ passed path steps, n ≤ state.depth) :
    ∀ state ∈ passed path steps, path.Keeps n state := by
  induction steps using Step.induction generalizing path with
  | nil => simp [Keeps.refl]
  | push segment rest ih =>
      have hPath := hLow path List.mem_cons_self
      have hRest := ih fun state hState => hLow state (mem_passed_push.mpr (.inr hState))
      intro state hState
      rcases mem_passed_push.mp hState with rfl | hLater
      · exact Keeps.refl n state
      · exact (keeps_push hPath).trans (hRest state hLater)
  | pop rest ih =>
      have hRest := ih fun state hState => hLow state (mem_passed_pop.mpr (.inr hState))
      have hPopped : path.Keeps n path.pop :=
        keeps_pop (hLow _ (mem_passed_pop.mpr (.inr List.mem_cons_self)))
      intro state hState
      rcases mem_passed_pop.mp hState with rfl | hLater
      · exact Keeps.refl n state
      · exact hPopped.trans (hRest state hLater)
  | key suffix rest ih =>
      intro state hState
      exact ih (fun state hState => hLow state (mem_passed_key.mpr hState)) state
        (mem_passed_key.mp hState)
  | scope segment body rest ihBody ih =>
      have hPath := hLow path List.mem_cons_self
      have hBody : ∀ state ∈ passed (path.push segment) body, path.Keeps n state := by
        have hInside : ∀ state ∈ passed (path.push segment) body, n ≤ state.depth := by
          intro state hState
          rcases List.mem_cons.mp hState with rfl | hWithin
          · exact le_depth_push hPath
          · exact hLow state (mem_passed_scoped.mpr (.inr (.inl hWithin)))
        intro state hState
        exact (keeps_push hPath).trans (ihBody hInside state hState)
      have hLeft : path.Keeps n (Scope.left ⟨path, segment, body⟩) :=
        (hBody _ (runAll_mem_passed _ _)).trans
          (keeps_pop (hLow _ (mem_passed_scoped.mpr (.inr (.inr List.mem_cons_self)))))
      have hRest := ih fun state hState => hLow state (mem_passed_scoped.mpr (.inr (.inr hState)))
      intro state hState
      rcases mem_passed_scoped.mp hState with rfl | hWithin | hLater
      · exact Keeps.refl n state
      · exact hBody state (List.mem_cons_of_mem _ hWithin)
      · exact hLeft.trans (hRest state hLater)

theorem lowest_le_of_mem_passed (hState : state ∈ passed path steps) :
    lowest path steps ≤ state.depth :=
  List.min_le_of_mem (List.mem_map_of_mem hState)

end Keeps

/-! ## Scopes that give back their path -/

namespace Scope

variable {scope : Scope}

/-- A balanced scope gives back the path at which it was entered, if none of the scopes
in it takes away the segment that it has added. -/
theorem Balanced.left_eq_outside (hScope : scope.Balanced)
    (hInner : ∀ inner ∈ scopes scope.inside scope.body,
      inner.reached.depth ≠ scope.inside.depth) : scope.left = scope.outside := by
  have hLow := le_depth_of_mem_passed (Nat.le_refl _) hScope.not_mem_popDepths hInner
  have hReached := keeps_of_mem_passed hLow scope.reached (runAll_mem_passed _ _)
  rw [left_eq, hReached.eq rfl hScope.depth_reached]
  exact pop_push

/-- Balanced scopes inside a balanced scope are left deeper than it starts. -/
theorem Balanced.depth_reached_ne (hScope : scope.Balanced)
    (hBalanced : ∀ inner ∈ scopes scope.inside scope.body, inner.Balanced) :
    ∀ inner ∈ scopes scope.inside scope.body, inner.reached.depth ≠ scope.inside.depth := by
  intro inner hInner
  have hOutside := le_depth_outside (Nat.le_refl _) hScope.not_mem_popDepths hBalanced inner hInner
  have hInside : inner.inside.depth = inner.outside.depth + 1 := depth_push
  have hReached := (hBalanced inner hInner).depth_reached
  omega

end Scope

/-- **Scopes.**  In a program whose scopes are all balanced, every scope gives back
exactly the path at which it was entered.  A balanced scope does so even around scopes
that are not balanced, as long as none of them takes away its segment.  Any program,
balanced or not, keeps the segments below the lowest depth that it reaches.  A segment
that is pushed leads where the key and the path for it have pointed before. -/
theorem scopes_restored :
    (∀ path program, (∀ scope ∈ scopes path program, scope.Balanced) →
      ∀ scope ∈ scopes path program, scope.left = scope.outside) ∧
    (∀ scope : Scope, scope.Balanced →
      (∀ inner ∈ scopes scope.inside scope.body, inner.reached.depth ≠ scope.inside.depth) →
        scope.left = scope.outside) ∧
    (∀ path body, ∀ state ∈ passed path body, path.Keeps (lowest path body) state) ∧
    ∀ (path : LanguagePath) segment,
      (path.push segment).current = path.pathFor segment ∧
        (path.push segment).currentKey = path.keyFor segment := by
  refine ⟨?_, fun scope hScope hInner => hScope.left_eq_outside hInner, ?_, ?_⟩
  · intro path program hBalanced scope hScope
    have hHere := hBalanced scope hScope
    exact hHere.left_eq_outside (hHere.depth_reached_ne fun inner hInner =>
      hBalanced inner (mem_scopes_of_mem_scopes hScope hInner))
  · intro path body
    exact keeps_of_mem_passed fun state hState => lowest_le_of_mem_passed hState
  · intro path segment
    exact ⟨current_push path segment, currentKey_push path segment⟩

/-- A scope that takes away more than it has added does not give back its path, even if
it ends at the depth at which it starts. -/
example :
    (Scope.left ⟨⟨"labels.xlf", ["items"]⟩, "title", [.pop, .pop, .push "tabs", .push "more"]⟩) =
      ⟨"labels.xlf", ["tabs"]⟩ := by
  decide

/-- A program whose scopes are balanced; one of them is inside the other. -/
def itemScopes : List Step :=
  [.push "box", .scoped "items" [.scoped "title" [.push "x", .key "label", .pop], .push "y", .pop],
    .pop]

/-- A balanced scope around one that is not: a segment of the inner one is left over and
popped after it. -/
def tabScope : Scope :=
  ⟨⟨"labels.xlf", ["tabs"]⟩, "more", [.scoped "title" [.push "x"], .pop]⟩

theorem scopes_restored_items :
    let path : LanguagePath := ⟨"labels.xlf", []⟩
    (scopes path itemScopes).map Scope.segment = ["items", "title"] ∧
      (∀ scope ∈ scopes path itemScopes, scope.Balanced) ∧
      (∀ scope ∈ scopes path itemScopes, scope.left = scope.outside) ∧
      tabScope.Balanced ∧
      (∃ inner ∈ scopes tabScope.inside tabScope.body, ¬inner.Balanced) ∧
      tabScope.left = tabScope.outside := by
  intro path
  have hProgram : ∀ scope ∈ scopes path itemScopes, scope.Balanced := by decide
  have hScope : tabScope.Balanced := by decide
  obtain ⟨hPrograms, hScopes, _⟩ := scopes_restored
  exact ⟨by decide, hProgram, hPrograms path itemScopes hProgram, hScope, by decide,
    hScopes tabScope hScope (by decide)⟩

end LanguagePath
end ContentSchema
