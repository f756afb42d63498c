/-!
# Cutting texts

The two parts of a text around the first occurrence of a mark, all parts between
occurrences of a mark, the rest of a text after a fixed beginning, and the
replacement of single characters.
-/

namespace ContentSchema
namespace Text

/-- The characters before and after the first occurrence of a mark. -/
def cutChars (mark : Char) : List Char → Option (List Char × List Char)
  | [] => none
  | c :: rest =>
      if c = mark then some ([], rest)
      else (cutChars mark rest).map fun parts => (c :: parts.1, parts.2)

/-- The parts of a text before and after the first occurrence of a mark. -/
def cut (mark : Char) (s : String) : Option (String × String) :=
  (cutChars mark s.toList).map fun parts => (String.ofList parts.1, String.ofList parts.2)

/-- The parts of a list between occurrences of a mark. -/
def splitChars (mark : Char) : List Char → List (List Char)
  | [] => [[]]
  | c :: rest =>
      if c = mark then [] :: splitChars mark rest
      else match splitChars mark rest with
        | [] => [[c]]
        | part :: parts => (c :: part) :: parts

/-- The parts of a text between occurrences of a mark. -/
def split (mark : Char) (s : String) : List String :=
  (splitChars mark s.toList).map String.ofList

/-- The rest of a list after a beginning that it has to have. -/
def dropBeginning (beginning : List Char) (cs : List Char) : Option (List Char) :=
  match beginning, cs with
  | [], cs => some cs
  | _ :: _, [] => none
  | b :: beginning, c :: cs => if b = c then dropBeginning beginning cs else none

/-- The text without a given character. -/
def without (mark : Char) (s : String) : String :=
  String.ofList (s.toList.filter (· ≠ mark))

/-- The text with every slash and dash replaced by an underscore. -/
def underscored (s : String) : String :=
  String.ofList (s.toList.map fun c => if c = '/' ∨ c = '-' then '_' else c)

/-- Both parts and the mark between them make up the whole. -/
theorem cutChars_eq_some_iff {mark : Char} {cs before after : List Char} :
    cutChars mark cs = some (before, after) ↔
      cs = before ++ mark :: after ∧ mark ∉ before := by
  induction cs generalizing before after with
  | nil => simp [cutChars]
  | cons c rest ih =>
      by_cases hMark : c = mark
      · subst hMark
        cases before with
        | nil => simp [cutChars]
        | cons b before =>
            simp only [cutChars, if_true, Option.some.injEq, Prod.mk.injEq, List.cons_append,
              List.cons.injEq, List.mem_cons, not_or]
            constructor
            · rintro ⟨h, _⟩
              exact absurd h (by simp)
            · rintro ⟨⟨h, _⟩, h', _⟩
              exact absurd h h'
      · cases before with
        | nil =>
            simp only [cutChars, if_neg hMark, Option.map_eq_some_iff, Prod.mk.injEq,
              List.nil_append, List.cons.injEq]
            constructor
            · rintro ⟨_, _, h, _⟩
              exact absurd h (by simp)
            · rintro ⟨⟨h, _⟩, _⟩
              exact absurd h hMark
        | cons b before =>
            simp only [cutChars, if_neg hMark, Option.map_eq_some_iff, Prod.mk.injEq,
              List.cons_append, List.cons.injEq, List.mem_cons, not_or]
            constructor
            · rintro ⟨⟨x, y⟩, hParts, ⟨hHead, hBefore⟩, hAfter⟩
              subst hBefore hAfter
              obtain ⟨hRest, hMem⟩ := ih.1 hParts
              exact ⟨⟨hHead, hRest⟩, by rw [← hHead]; exact fun h => hMark h.symm, hMem⟩
            · rintro ⟨⟨hHead, hRest⟩, _, hMem⟩
              exact ⟨(before, after), ih.2 ⟨hRest, hMem⟩, ⟨hHead, rfl⟩, rfl⟩

end Text
end ContentSchema
