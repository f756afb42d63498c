import ContentSchema.Language.Keys
import ContentSchema.Proofs.Language.Path
import ContentSchema.Proofs.Walk.Keys
import ContentSchema.Text.Cut

/-!
# Steps of keys

The dots of a key cut it into steps.  A key at a position begins with the steps of
the position, and two keys are equal exactly when their steps are, so that keys can
be compared step by step.

* `Text.split_append_dot` and `Text.intercalate_split` relate cutting and joining.
* `LanguageKey.steps` are the steps of a key, `LanguagePath.steps` those of a
  position.
* `LanguagePath.steps_entry` puts them together.

An authored identifier may have dots itself.  It is `Text.Dotless` only where that
is said, and one that is not makes more than one step.
-/

namespace ContentSchema

namespace Text

/-! ## Cutting at dots -/

/-- The text has no dot. -/
def Dotless (text : String) : Prop :=
  '.' ∉ text.toList

instance (text : String) : Decidable (Dotless text) :=
  inferInstanceAs (Decidable (¬_))

theorem splitChars_ne_nil (mark : Char) (cs : List Char) : splitChars mark cs ≠ [] := by
  cases cs with
  | nil => simp [splitChars]
  | cons c rest =>
      unfold splitChars
      split
      · simp
      · split <;> simp

/-- The parts on both sides of a mark are cut on their own. -/
theorem splitChars_append_cons (mark : Char) (before after : List Char) :
    splitChars mark (before ++ mark :: after) =
      splitChars mark before ++ splitChars mark after := by
  induction before with
  | nil => simp [splitChars]
  | cons c rest ih =>
      by_cases hMark : c = mark
      · simp [splitChars, hMark, ih]
      · rw [List.cons_append, splitChars, if_neg hMark, ih, splitChars, if_neg hMark]
        cases hRest : splitChars mark rest with
        | nil => exact absurd hRest (splitChars_ne_nil mark rest)
        | cons part parts => rfl

theorem splitChars_of_not_mem {mark : Char} {cs : List Char} (hWhole : mark ∉ cs) :
    splitChars mark cs = [cs] := by
  induction cs with
  | nil => rfl
  | cons c rest ih =>
      obtain ⟨hHead, hRest⟩ := not_or.mp (mt List.mem_cons.mpr hWhole)
      rw [splitChars, if_neg (Ne.symm hHead), ih hRest]

/-- Cutting loses nothing. -/
theorem intercalate_splitChars (mark : Char) (cs : List Char) :
    [mark].intercalate (splitChars mark cs) = cs := by
  induction cs with
  | nil => rfl
  | cons c rest ih =>
      rw [splitChars]
      cases hRest : splitChars mark rest with
      | nil => exact absurd hRest (splitChars_ne_nil mark rest)
      | cons part parts =>
          rw [hRest] at ih
          by_cases hMark : c = mark
          · rw [if_pos hMark, List.intercalate_cons_cons, ih, hMark]
            rfl
          · rw [if_neg hMark]
            cases parts with
            | nil => simpa using ih
            | cons next more =>
                rw [List.intercalate_cons_cons] at ih ⊢
                rw [← ih]
                rfl

theorem split_of_dotless {text : String} (hText : Dotless text) : split '.' text = [text] := by
  rw [split, splitChars_of_not_mem hText, List.map_singleton, String.ofList_toList]

theorem split_append_dot (before after : String) :
    split '.' (before ++ "." ++ after) = split '.' before ++ split '.' after := by
  have hChars : (before ++ "." ++ after).toList = before.toList ++ '.' :: after.toList := by
    simp [String.toList_append]
  rw [split, hChars, splitChars_append_cons, List.map_append]
  rfl

/-- A word before a dot is a step of its own. -/
theorem split_word_append (word dotted : String) (hDotted : dotted = word ++ ".")
    (hWord : Dotless word) (after : String) :
    split '.' (dotted ++ after) = word :: split '.' after := by
  rw [hDotted, split_append_dot, split_of_dotless hWord]
  rfl

/-- A text without dots behind a word is the only other step. -/
theorem split_word_append_of_dotless (word dotted : String) (hDotted : dotted = word ++ ".")
    (hWord : Dotless word) {after : String} (hAfter : Dotless after) :
    split '.' (dotted ++ after) = [word, after] := by
  rw [split_word_append word dotted hDotted hWord, split_of_dotless hAfter]

/-- A word behind a dot is a step of its own. -/
theorem split_append_word (word dotted : String) (hDotted : dotted = "." ++ word)
    (hWord : Dotless word) (before : String) :
    split '.' (before ++ dotted) = split '.' before ++ [word] := by
  rw [hDotted, ← String.append_assoc, split_append_dot, split_of_dotless hWord]

/-- A word between dots is a step of its own. -/
theorem split_append_word_append (word dotted : String) (hDotted : dotted = "." ++ word ++ ".")
    (hWord : Dotless word) (before after : String) :
    split '.' (before ++ dotted ++ after) = split '.' before ++ word :: split '.' after := by
  have hJoined : before ++ dotted ++ after = before ++ "." ++ word ++ "." ++ after := by
    rw [hDotted]
    simp only [String.append_assoc]
  rw [hJoined, split_append_dot, split_append_dot, split_of_dotless hWord, List.append_assoc]
  rfl

theorem intercalate_split (text : String) : ".".intercalate (split '.' text) = text := by
  rw [← String.toList_inj, String.toList_intercalate, split, List.map_map]
  simpa [Function.comp_def] using intercalate_splitChars '.' text.toList

theorem split_ne_nil (text : String) : split '.' text ≠ [] := by
  simpa [split] using splitChars_ne_nil '.' text.toList

/-- Texts are equal once they are cut into the same steps. -/
theorem split_injective {first second : String} (hSteps : split '.' first = split '.' second) :
    first = second := by
  rw [← intercalate_split first, hSteps, intercalate_split]

end Text

/-! ## Positions -/

namespace LanguagePath

/-- The steps to a position below its file. -/
def steps (path : LanguagePath) : List String :=
  path.segments.flatMap (Text.split '.')

theorem steps_push (path : LanguagePath) (segment : String) :
    (path.push segment).steps = path.steps ++ Text.split '.' segment := by
  simp [steps, push]

/-- The steps of a joined way are those of its parts. -/
theorem split_intercalate {way : List String} (hWay : way ≠ []) :
    Text.split '.' (".".intercalate way) = way.flatMap (Text.split '.') := by
  induction way with
  | nil => contradiction
  | cons first rest ih =>
      cases rest with
      | nil => simp
      | cons next more =>
          rw [String.intercalate_cons_cons, Text.split_append_dot, ih (List.cons_ne_nil _ _)]
          rfl

end LanguagePath

/-- The steps of a key. -/
def LanguageKey.steps (key : LanguageKey) : List String :=
  Text.split '.' key.key

theorem LanguageKey.key_eq_iff {first second : LanguageKey} :
    first.key = second.key ↔ first.steps = second.steps :=
  ⟨congrArg (Text.split '.'), Text.split_injective⟩

/-- A key begins with the steps to its position. -/
theorem LanguagePath.steps_entry (path : LanguagePath) (suffix text : String) :
    (path.entry suffix text).steps = path.steps ++ Text.split '.' suffix := by
  show Text.split '.' (path.keyFor suffix) = _
  rw [keyFor_eq, split_intercalate (by simp), List.flatMap_append, List.flatMap_singleton]
  rfl

/-- A word behind a dot is the last step of a key. -/
theorem LanguagePath.steps_entry_append_word (word dotted : String)
    (hDotted : dotted = "." ++ word) (hWord : Text.Dotless word) (path : LanguagePath)
    (before text : String) :
    (path.entry (before ++ dotted) text).steps =
      path.steps ++ (Text.split '.' before ++ [word]) := by
  rw [steps_entry, Text.split_append_word word dotted hDotted hWord]

end ContentSchema
