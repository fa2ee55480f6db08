import LetLang.Source.Piece
import Mathlib.Data.List.Chain

/-!
# The classes of characters are apart

What a piece of a source text is shows in its first character, because no character is of two of the
classes that can start a piece: blanks, letters and digits share no character, and the mark of a
comment, the underscore, the point and the characters of operators are in none of the three.

The classes are tables of intervals. Two tables that are in increasing order are compared by going
along both at once (`apart`), so that the comparison is short enough to be computed.
-/

set_option autoImplicit false

namespace LetLang.Text

/-! ### Tables of intervals -/

/-- Whether the intervals of a table are in the order of their starts. -/
def Increasing (ranges : List (Nat × Nat)) : Prop :=
  ranges.IsChain fun range next => range.1 ≤ next.1

instance (ranges : List (Nat × Nat)) : Decidable (Increasing ranges) :=
  inferInstanceAs (Decidable (ranges.IsChain _))

/-- Whether no interval of one table meets one of another, found by going along both in at most the
given number of steps. -/
def apart : Nat → List (Nat × Nat) → List (Nat × Nat) → Bool
  | _, [], _ => true
  | _, _, [] => true
  | 0, _, _ => false
  | steps + 1, range :: first, other :: second =>
    if range.2 < other.1 then apart steps first (other :: second)
    else other.2 < range.1 && apart steps (range :: first) second

theorem inRanges_cons {range : Nat × Nat} {ranges : List (Nat × Nat)} {code : Nat} :
    inRanges (range :: ranges) code = true ↔
      (range.1 ≤ code ∧ code ≤ range.2) ∨ inRanges ranges code = true := by
  simp [inRanges]

/-- A code point in an increasing table is not before the first start. -/
theorem Increasing.le_of_inRanges {range : Nat × Nat} {ranges : List (Nat × Nat)} {code : Nat}
    (hincreasing : Increasing (range :: ranges)) (hcode : inRanges (range :: ranges) code = true) :
    range.1 ≤ code := by
  induction ranges generalizing range with
  | nil =>
    rcases inRanges_cons.mp hcode with hrange | hnone
    · exact hrange.1
    · cases hnone
  | cons next ranges ih =>
    obtain ⟨hnext, htail⟩ := List.isChain_cons_cons.mp hincreasing
    rcases inRanges_cons.mp hcode with hrange | hrest
    · exact hrange.1
    · exact Nat.le_trans hnext (ih htail hrest)

theorem not_inRanges_of_apart {steps : Nat} {first second : List (Nat × Nat)} {code : Nat}
    (hapart : apart steps first second = true) (hfirst : Increasing first)
    (hsecond : Increasing second) (hcode : inRanges first code = true) :
    ¬ inRanges second code = true := by
  fun_induction apart steps first second with
  | case1 => cases hcode
  | case2 => exact fun hnone ↦ nomatch hnone
  | case3 => cases hapart
  | case4 steps range first other second hbefore ih =>
    -- The first interval ends before all of the second table, so the code point is not in it.
    intro hother
    have hlow := hsecond.le_of_inRanges hother
    rcases inRanges_cons.mp hcode with hrange | hrest
    · omega
    · exact ih hapart hfirst.tail hsecond hrest hother
  | case5 steps range first other second hbefore ih =>
    rw [Bool.and_eq_true, decide_eq_true_iff] at hapart
    intro hother
    have hlow := hfirst.le_of_inRanges hcode
    rcases inRanges_cons.mp hother with hrange | hrest
    · omega
    · exact ih hapart.2 hfirst hsecond.tail hcode hrest

/-- Two tables share no code point: both are increasing, and going along them finds nothing. -/
def Separated (first second : List (Nat × Nat)) : Prop :=
  Increasing first ∧ Increasing second ∧ apart (first.length + second.length) first second = true

instance (first second : List (Nat × Nat)) : Decidable (Separated first second) :=
  inferInstanceAs (Decidable (_ ∧ _ ∧ _))

theorem Separated.not_inRanges {first second : List (Nat × Nat)} {code : Nat}
    (hseparated : Separated first second) (hcode : inRanges first code = true) :
    ¬ inRanges second code = true :=
  not_inRanges_of_apart hseparated.2.2 hseparated.1 hseparated.2.1 hcode

/-! ### Blanks, letters and digits -/

/-- The intervals of all letters. -/
def allLetterRanges : List (Nat × Nat) := (65, 90) :: (97, 122) :: letterRanges

/-- The intervals of all decimal digits. -/
def decimalRanges : List (Nat × Nat) :=
  (48, 57) :: decimalZeros.map fun first => (first, first + 9)

theorem inRanges_of_isLetter {c : Char} (hletter : isLetter c = true) :
    inRanges allLetterRanges c.toNat = true := by
  unfold isLetter isAsciiLetter at hletter
  split at hletter
  · rw [Bool.or_eq_true, Bool.and_eq_true, Bool.and_eq_true] at hletter
    simp only [decide_eq_true_iff] at hletter
    rcases hletter with hupper | hlower
    · exact inRanges_cons.mpr (.inl hupper)
    · exact inRanges_cons.mpr (.inr (inRanges_cons.mpr (.inl hlower)))
  · exact inRanges_cons.mpr (.inr (inRanges_cons.mpr (.inr hletter)))

theorem inRanges_of_isDecimalDigit {c : Char} (hdigit : isDecimalDigit c = true) :
    inRanges decimalRanges c.toNat = true := by
  unfold isDecimalDigit decimalValue? at hdigit
  split at hdigit
  · split at hdigit
    · next hascii =>
      rw [Bool.and_eq_true, decide_eq_true_iff, decide_eq_true_iff] at hascii
      exact inRanges_cons.mpr (.inl hascii)
    · cases hdigit
  · obtain ⟨value, hvalue⟩ := Option.isSome_iff_exists.mp hdigit
    obtain ⟨first, hfirst, hfound⟩ := List.exists_of_findSome?_eq_some hvalue
    split at hfound
    · next hrange =>
      rw [Bool.and_eq_true, decide_eq_true_iff, decide_eq_true_iff] at hrange
      refine inRanges_cons.mpr (.inr (inRanges_eq_true_iff.mpr ⟨(first, first + 9), ?_, hrange⟩))
      exact List.mem_map.mpr ⟨first, hfirst, rfl⟩
    · cases hfound

theorem inRanges_of_isDigit {c : Char} (hdigit : isDigit c = true) :
    inRanges decimalRanges c.toNat = true ∨ inRanges digitFormRanges c.toNat = true := by
  unfold isDigit at hdigit
  rw [Bool.or_eq_true, Bool.and_eq_true] at hdigit
  rcases hdigit with hdecimal | hform
  · exact .inl (inRanges_of_isDecimalDigit hdecimal)
  · exact .inr hform.2

/-- The tables of letters, digits and blanks, two at a time. -/
theorem separated_tables :
    Separated allLetterRanges decimalRanges ∧ Separated allLetterRanges digitFormRanges ∧
      Separated allLetterRanges blankRanges ∧ Separated decimalRanges blankRanges ∧
      Separated digitFormRanges blankRanges := by
  decide +kernel

theorem isDigit_of_isLetter {c : Char} (hletter : isLetter c = true) : isDigit c = false := by
  have hcode := inRanges_of_isLetter hletter
  obtain ⟨hdecimals, hforms, -⟩ := separated_tables
  rw [Bool.eq_false_iff]
  intro hdigit
  rcases inRanges_of_isDigit hdigit with hdecimal | hform
  · exact hdecimals.not_inRanges hcode hdecimal
  · exact hforms.not_inRanges hcode hform

theorem isBlank_of_isLetter {c : Char} (hletter : isLetter c = true) : isBlank c = false := by
  obtain ⟨-, -, hblanks, -⟩ := separated_tables
  rw [Bool.eq_false_iff]
  exact hblanks.not_inRanges (inRanges_of_isLetter hletter)

theorem isBlank_of_isDigit {c : Char} (hdigit : isDigit c = true) : isBlank c = false := by
  obtain ⟨-, -, -, hdecimals, hforms⟩ := separated_tables
  rw [Bool.eq_false_iff]
  rcases inRanges_of_isDigit hdigit with hdecimal | hform
  · exact hdecimals.not_inRanges hdecimal
  · exact hforms.not_inRanges hform

theorem isBlank_of_isNumeral {c : Char} (hnumeral : isNumeral c = true) : isBlank c = false := by
  have hseparated : Separated numeralRanges blankRanges := by decide +kernel
  rw [isNumeral, Bool.or_eq_true, Bool.and_eq_true] at hnumeral
  rcases hnumeral with hdigit | ⟨-, hother⟩
  · exact isBlank_of_isDigit hdigit
  · rw [Bool.eq_false_iff]
    exact hseparated.not_inRanges hother

end LetLang.Text
