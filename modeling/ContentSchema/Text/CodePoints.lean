/-!
# Sets of characters

A property of characters is given by the ranges of code points that have it.  All
tables in this folder follow version 16.0 of the Unicode character database.
-/

namespace ContentSchema
namespace Text

/-- Whether a code point lies in one of several inclusive ranges. -/
def isWithin (ranges : Array (Nat × Nat)) (n : Nat) : Bool :=
  ranges.any fun range => range.1 ≤ n && n ≤ range.2

theorem isWithin_iff {ranges : Array (Nat × Nat)} {n : Nat} :
    isWithin ranges n = true ↔ ∃ range ∈ ranges, range.1 ≤ n ∧ n ≤ range.2 := by
  simp only [isWithin, Array.any_eq_true', Bool.and_eq_true, decide_eq_true_eq]

end Text
end ContentSchema
