import ContentSchema.Language.Path
import Mathlib.Tactic.Common

/-!
# Paths as ways

The path of a text is its language file, and below it the steps of a way joined by
dots.  Several steps that are taken at once, joined by dots beforehand, lead to
the same path as if they were taken one after another.

* `textPath` is the path at the end of a way.
* `LanguagePath.pathFor_eq` tells the paths of texts by ways.
* `intercalate_joined` takes joined steps apart.

Steps may contain dots themselves, so a path does NOT tell its way.
-/

namespace ContentSchema

/-- The path of the text at the end of a way below a language file. -/
def textPath (file : String) (way : List String) : String :=
  file ++ ":" ++ ".".intercalate way

/-- Joined steps lead where the single steps do. -/
theorem intercalate_joined (before : List String) {inner : List String} (hInner : inner ≠ [])
    (after : List String) :
    ".".intercalate (before ++ ".".intercalate inner :: after) =
      ".".intercalate (before ++ inner ++ after) := by
  have hLater : ".".intercalate (".".intercalate inner :: after) =
      ".".intercalate (inner ++ after) := by
    cases after with
    | nil => rw [String.intercalate_singleton, List.append_nil]
    | cons next rest =>
        rw [String.intercalate_cons_cons,
          String.intercalate_append_of_ne_nil hInner (List.cons_ne_nil next rest)]
  cases before with
  | nil => exact hLater
  | cons first rest =>
      have hSome : inner ++ after ≠ [] := by simp [hInner]
      rw [List.append_assoc,
        String.intercalate_append_of_ne_nil (List.cons_ne_nil first rest) (List.cons_ne_nil _ _),
        String.intercalate_append_of_ne_nil (List.cons_ne_nil first rest) hSome, hLater]

theorem textPath_joined (file : String) (before : List String) {inner : List String}
    (hInner : inner ≠ []) (after : List String) :
    textPath file (before ++ ".".intercalate inner :: after) =
      textPath file (before ++ inner ++ after) := by
  rw [textPath, intercalate_joined before hInner after]
  rfl

namespace LanguagePath

theorem keyFor_eq (path : LanguagePath) (suffix : String) :
    path.keyFor suffix = ".".intercalate (path.segments ++ [suffix]) := by
  unfold keyFor currentKey
  cases hSegments : path.segments with
  | nil => simp
  | cons first rest =>
      rw [if_neg (by simp),
        String.intercalate_append_of_ne_nil (List.cons_ne_nil first rest)
          (List.cons_ne_nil suffix []),
        String.intercalate_singleton]

theorem pathFor_eq (path : LanguagePath) (suffix : String) :
    path.pathFor suffix = textPath path.base (path.segments ++ [suffix]) := by
  rw [pathFor, keyFor_eq]
  rfl

/-- A text is found at the end of its way, whatever steps are joined in its
suffix. -/
theorem pathFor_joined (path : LanguagePath) {way : List String} (hWay : way ≠ []) :
    path.pathFor (".".intercalate way) = textPath path.base (path.segments ++ way) := by
  rw [pathFor_eq, textPath_joined path.base path.segments hWay [], List.append_nil]

theorem pathFor_push (path : LanguagePath) (segment suffix : String) :
    (path.push segment).pathFor suffix =
      textPath path.base (path.segments ++ [segment, suffix]) := by
  rw [pathFor_eq]
  show textPath path.base ((path.segments ++ [segment]) ++ [suffix]) = _
  rw [List.append_assoc]
  rfl

/-- A segment that is pushed leads where its key has pointed before. -/
theorem currentKey_push (path : LanguagePath) (segment : String) :
    (path.push segment).currentKey = path.keyFor segment :=
  (keyFor_eq path segment).symm

theorem current_push (path : LanguagePath) (segment : String) :
    (path.push segment).current = path.pathFor segment := by
  rw [pathFor, ← currentKey_push]
  simp [current, push]

end LanguagePath
end ContentSchema
