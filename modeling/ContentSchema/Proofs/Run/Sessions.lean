import ContentSchema.Proofs.Run.FirstError

/-!
# Sessions of one compiler

A compiler keeps what a run emits while it is under way, and a run that fails
leaves behind whatever was kept by then.  The next run starts from nothing all
the same, so a compiler that has been used before answers like a new one.

* `Compiler.compile_eq` says what a run answers, and what it leaves.
* `Compiler.session_eq_map_compile` is about all runs of a session.

A run that fails does NOT leave its compiler as it was before.
-/

namespace ContentSchema

/-! ## What a run leaves -/

namespace Compiler

/-- What a run over the documents leaves behind: nothing, unless it fails. -/
def leftover (environment : Environment) (documents : List SchemaDocument) : Scratch :=
  match (runWalk environment documents).result with
  | .ok _ => {}
  | .error _ => ({} : Scratch).keep (runWalk environment documents).emission

/-- A run answers like that of a new compiler, and what it leaves has nothing of
what was left before. -/
theorem compile_eq (compiler : Compiler) (documents : List SchemaDocument) :
    compiler.compile documents =
      ({ environment := compiler.environment
         scratch := leftover compiler.environment documents },
        ContentSchema.compile compiler.environment documents) := by
  have hAnswer : (compiler.compile documents).2 =
      ContentSchema.compile compiler.environment documents := rfl
  rw [← hAnswer]
  refine Prod.ext ?_ rfl
  unfold compile leftover runWalk
  cases hWalk : (SchemaDocument.compileAll compiler.environment [] documents).result with
  | ok _ => simp [reset, hWalk]
  | error e => simp [reset, hWalk]

/-- **Sessions.**  Whatever a compiler has kept and whatever runs came before,
every run of a session answers like the run of a new compiler over the same
documents. -/
theorem session_eq_map_compile (compiler : Compiler) (runs : List (List SchemaDocument)) :
    compiler.session runs = runs.map (ContentSchema.compile compiler.environment) := by
  -- What is left after a run differs, so the induction is for all compilers at once.
  induction runs generalizing compiler with
  | nil => rfl
  | cons documents rest ih =>
      have hStep : compiler.session (documents :: rest) =
          (compiler.compile documents).2 :: (compiler.compile documents).1.session rest := rfl
      rw [hStep, ih, compile_eq, List.map_cons]

/-- The run that fails has registered labels by then, and the compiler keeps
them. -/
example :
    (leftover galleryEnvironment [gallery, captionedSlider]).languageKeys.isEmpty = false := by
  decide +kernel

end Compiler
end ContentSchema
