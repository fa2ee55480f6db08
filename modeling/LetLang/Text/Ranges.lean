/-!
# Character classes

Character classes are given as lists of closed intervals of code points. `inRanges` is membership
in such a list.
-/

set_option autoImplicit false

namespace LetLang.Text

/-- Whether a code point lies in one of the closed intervals of a list. -/
def inRanges (ranges : List (Nat × Nat)) (code : Nat) : Bool :=
  ranges.any fun range => range.1 ≤ code && code ≤ range.2

theorem inRanges_eq_true_iff {ranges : List (Nat × Nat)} {code : Nat} :
    inRanges ranges code = true ↔ ∃ range ∈ ranges, range.1 ≤ code ∧ code ≤ range.2 := by
  simp [inRanges]

end LetLang.Text
