import ContentSchema.Compiler.Closing
import Mathlib.Data.List.Forall2

/-!
# Renamed conditions

What closing a pass makes of a display condition, told by the condition and not
by the recursion: its shape stays, and each of its texts that names a field names
it by the final identifier.

* `Condition.TextRenamed` relates a text to the text that it becomes.
* `Condition.Renamed` relates a condition to the condition that it becomes.
* `Condition.rename_eq_iff` says that the compiler makes exactly that of it.

Names of an object are NOT texts of the condition: they stay even where they are
spelled like one that names a field.
-/

namespace ContentSchema

namespace Text

theorem dropBeginning_eq_some_iff {beginning cs rest : List Char} :
    dropBeginning beginning cs = some rest ↔ cs = beginning ++ rest := by
  induction beginning generalizing cs with
  | nil => simp [dropBeginning]
  | cons b beginning ih =>
      cases cs with
      | nil => simp [dropBeginning]
      | cons c cs =>
          by_cases hHead : b = c
          · simp [dropBeginning, hHead, ih]
          · simp [dropBeginning, hHead, Ne.symm hHead]

theorem dropBeginning_eq_none_iff {beginning cs : List Char} :
    dropBeginning beginning cs = none ↔ ∀ rest, cs ≠ beginning ++ rest := by
  rw [Option.eq_none_iff_forall_ne_some]
  exact forall_congr' fun rest => not_congr dropBeginning_eq_some_iff

/-- A text that cannot be cut does not have the mark. -/
theorem cutChars_eq_none_iff {mark : Char} {cs : List Char} :
    cutChars mark cs = none ↔ mark ∉ cs := by
  induction cs with
  | nil => simp [cutChars]
  | cons c rest ih =>
      by_cases hHead : c = mark
      · simp [cutChars, hHead]
      · simp [cutChars, hHead, Ne.symm hHead, ih]

end Text

namespace Condition

/-! ## Texts -/

/-- `other` is `text` with the field that it names renamed by `final`.  The
identifier of the field ends at the first colon. -/
inductive TextRenamed (final : String → String) : String → String → Prop where
  | named (identifier : String) (hWhole : ':' ∉ identifier.toList) :
      TextRenamed final (marker ++ identifier) (marker ++ final identifier)
  | compared (identifier tail : String) (hWhole : ':' ∉ identifier.toList) :
      TextRenamed final (marker ++ identifier ++ ":" ++ tail)
        (marker ++ final identifier ++ ":" ++ tail)
  /-- The text names no field. -/
  | other (text : String) (hOther : ∀ rest, text ≠ marker ++ rest) :
      TextRenamed final text text

variable {names : Entries String} {final : String → String} {text other : String}

/-- A text that names no field stays. -/
theorem renameText_of_other (hOther : ∀ rest, text ≠ marker ++ rest) :
    renameText names text = text := by
  have hNone : Text.dropBeginning marker.toList text.toList = none := by
    rw [Text.dropBeginning_eq_none_iff]
    intro rest hText
    exact hOther (String.ofList rest) (String.toList_inj.mp (by simpa using hText))
  rw [renameText, hNone]

/-- A text of a field alone becomes that of its final identifier. -/
theorem renameText_named {identifier : String} (hWhole : ':' ∉ identifier.toList) :
    renameText names (marker ++ identifier) =
      marker ++ Pass.resolveIdentifier names identifier := by
  have hRest : Text.dropBeginning marker.toList (marker ++ identifier).toList =
      some identifier.toList := by
    rw [Text.dropBeginning_eq_some_iff, String.toList_append]
  rw [renameText, hRest, Pass.resolveIdentifier]
  simp only [Text.cutChars_eq_none_iff.mpr hWhole, String.ofList_toList]
  cases names.lookup identifier <;> rfl

/-- A text with a field before a colon keeps what stands behind the colon. -/
theorem renameText_compared {identifier : String} (tail : String)
    (hWhole : ':' ∉ identifier.toList) :
    renameText names (marker ++ identifier ++ ":" ++ tail) =
      marker ++ Pass.resolveIdentifier names identifier ++ ":" ++ tail := by
  have hRest : Text.dropBeginning marker.toList (marker ++ identifier ++ ":" ++ tail).toList =
      some (identifier.toList ++ ':' :: tail.toList) := by
    rw [Text.dropBeginning_eq_some_iff]
    simp [String.toList_append]
  have hCut : Text.cutChars ':' (identifier.toList ++ ':' :: tail.toList) =
      some (identifier.toList, tail.toList) :=
    Text.cutChars_eq_some_iff.mpr ⟨rfl, hWhole⟩
  rw [renameText, hRest, Pass.resolveIdentifier]
  simp only [hCut, String.ofList_toList]
  cases names.lookup identifier <;> rfl

/-- A text names a field, before a colon or alone, or it names none. -/
theorem exists_textRenamed (final : String → String) (text : String) :
    ∃ other, TextRenamed final text other := by
  by_cases hNames : ∃ rest, text = marker ++ rest
  · obtain ⟨rest, rfl⟩ := hNames
    cases hCut : Text.cutChars ':' rest.toList with
    | none => exact ⟨_, .named rest (Text.cutChars_eq_none_iff.mp hCut)⟩
    | some parts =>
        obtain ⟨identifier, tail⟩ := parts
        obtain ⟨hRest, hWhole⟩ := Text.cutChars_eq_some_iff.mp hCut
        have hText : marker ++ rest =
            marker ++ String.ofList identifier ++ ":" ++ String.ofList tail := by
          rw [← String.toList_inj]
          simp [String.toList_append, hRest]
        rw [hText]
        exact ⟨_, .compared _ _ (by simpa using hWhole)⟩
  · exact ⟨text, .other text fun rest hText => hNames ⟨rest, hText⟩⟩

theorem TextRenamed.renameText_eq
    (hText : TextRenamed (Pass.resolveIdentifier names) text other) :
    renameText names text = other := by
  cases hText with
  | named identifier hWhole => exact renameText_named hWhole
  | compared identifier tail hWhole => exact renameText_compared tail hWhole
  | other text hOther => exact renameText_of_other hOther

theorem renameText_eq_iff :
    renameText names text = other ↔ TextRenamed (Pass.resolveIdentifier names) text other := by
  constructor
  · rintro rfl
    obtain ⟨other, hText⟩ := exists_textRenamed (Pass.resolveIdentifier names) text
    rwa [hText.renameText_eq]
  · exact TextRenamed.renameText_eq

/-! ## Conditions -/

/-- `other` is the condition `value` with the fields that it names renamed by
`final`: the same keys, lists of the same length and the same values other than
texts. -/
inductive Renamed (final : String → String) : Value → Value → Prop where
  | null : Renamed final .null .null
  | bool (b : Bool) : Renamed final (.bool b) (.bool b)
  | int (n : Int) : Renamed final (.int n) (.int n)
  | double (d : Double) : Renamed final (.double d) (.double d)
  | string {text other : String} (hText : TextRenamed final text other) :
      Renamed final (.string text) (.string other)
  | list {items others : List Value} (hItems : List.Forall₂ (Renamed final) items others) :
      Renamed final (.list items) (.list others)
  | object {entries others : Entries Value} (hKeys : Entries.keys others = Entries.keys entries)
      (hValues : List.Forall₂ (Renamed final) (Entries.values entries) (Entries.values others)) :
      Renamed final (.object entries) (.object others)

theorem keys_renameEntries (names : Entries String) (entries : Entries Value) :
    Entries.keys (renameEntries names entries) = Entries.keys entries := by
  induction entries with
  | nil => rfl
  | cons entry rest ih =>
      rw [renameEntries, Entries.keys_cons, ih]
      rfl

mutual

theorem renamed_rename (names : Entries String) :
    ∀ value, Renamed (Pass.resolveIdentifier names) value (rename names value)
  | .null => .null
  | .bool b => .bool b
  | .int n => .int n
  | .double d => .double d
  | .string _ => .string (renameText_eq_iff.mp rfl)
  | .list items => .list (forall₂_renameItems names items)
  | .object entries =>
      .object (keys_renameEntries names entries) (forall₂_renameEntries names entries)

theorem forall₂_renameItems (names : Entries String) :
    ∀ items, List.Forall₂ (Renamed (Pass.resolveIdentifier names)) items
      (renameItems names items)
  | [] => .nil
  | item :: rest => .cons (renamed_rename names item) (forall₂_renameItems names rest)

theorem forall₂_renameEntries (names : Entries String) :
    ∀ entries, List.Forall₂ (Renamed (Pass.resolveIdentifier names)) (Entries.values entries)
      (Entries.values (renameEntries names entries))
  | [] => .nil
  | (_, value) :: rest => .cons (renamed_rename names value) (forall₂_renameEntries names rest)

end

/-! The relation leaves no choice: a condition is renamed in one way only. -/

mutual

theorem Renamed.rename_eq {names : Entries String} :
    ∀ {value other : Value}, Renamed (Pass.resolveIdentifier names) value other →
      rename names value = other
  | .null, _, .null => rfl
  | .bool _, _, .bool _ => rfl
  | .int _, _, .int _ => rfl
  | .double _, _, .double _ => rfl
  | .string _, _, .string hText => by rw [rename, hText.renameText_eq]
  | .list items, _, .list hItems => by rw [rename, renameItems_eq_of_forall₂ items hItems]
  | .object entries, _, .object hKeys hValues => by
      rw [rename, renameEntries_eq_of_forall₂ entries hKeys hValues]

theorem renameItems_eq_of_forall₂ {names : Entries String} :
    ∀ items {others : List Value},
      List.Forall₂ (Renamed (Pass.resolveIdentifier names)) items others →
        renameItems names items = others
  | [], _, .nil => rfl
  | item :: rest, _, .cons hItem hRest => by
      rw [renameItems, hItem.rename_eq, renameItems_eq_of_forall₂ rest hRest]

theorem renameEntries_eq_of_forall₂ {names : Entries String} :
    ∀ (entries : Entries Value) {others : Entries Value},
      Entries.keys others = Entries.keys entries →
        List.Forall₂ (Renamed (Pass.resolveIdentifier names)) (Entries.values entries)
          (Entries.values others) →
        renameEntries names entries = others
  | [], [], _, _ => rfl
  | (_, value) :: rest, (_, other) :: others, hKeys, .cons hValue hRest => by
      obtain ⟨rfl, hMore⟩ := List.cons.inj hKeys
      rw [renameEntries, hValue.rename_eq, renameEntries_eq_of_forall₂ rest hMore hRest]

end

end Condition
end ContentSchema
