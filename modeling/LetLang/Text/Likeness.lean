/-!
# Likeness of words

How much alike two words are, so that a known word can be offered in place of one that is not known.

Two words are compared by the longest run of characters that both have, the first one if there are
several (`longestRun`); what stands before the run in both words is compared in the same way, and so
is what stands after it. The characters matched in all these runs (`matched`), counted in both
words, are a share of all characters of the two (`likeness`); words with a large enough share are
close, and of the known words the closest can be picked (`closest`).
-/

set_option autoImplicit false

namespace LetLang.Text

/-! ### Runs -/

/-- A run of characters that two words share: where it starts in each, and how long it is. -/
structure Run where
  left : Nat := 0
  right : Nat := 0
  length : Nat := 0

/-- How many characters two words share at their start. -/
def sharedStart : List Char → List Char → Nat
  | c :: left, d :: right => if c = d then sharedStart left right + 1 else 0
  | _, _ => 0

/-- The parts of a word from each of its characters on, with the places of those characters, which
are counted from the given one. -/
def endings (place : Nat) : List Char → List (Nat × List Char)
  | [] => []
  | c :: rest => (place, c :: rest) :: endings (place + 1) rest

/-- The runs that two words share, by where they start in the first word and then in the second. -/
def runs (left right : List Char) : List Run :=
  (endings 0 left).flatMap fun (i, leftEnding) =>
    (endings 0 right).map fun (j, rightEnding) => ⟨i, j, sharedStart leftEnding rightEnding⟩

/-- The longer of two runs, and the first if they are equally long. -/
def Run.longer (first second : Run) : Run := if first.length < second.length then second else first

/-- The longest run that two words share; it is empty if they have no character in common. -/
def longestRun (left right : List Char) : Run := (runs left right).foldl Run.longer {}

/-! ### Where the longest run is -/

theorem lt_of_mem_endings {place i : Nat} {word ending : List Char}
    (h : (i, ending) ∈ endings place word) : i < place + word.length := by
  induction word generalizing place with
  | nil => simp [endings] at h
  | cons c rest ih =>
    simp only [endings, List.mem_cons, Prod.mk.injEq, List.length_cons] at h ⊢
    rcases h with ⟨rfl, -⟩ | h
    · omega
    · have := ih h
      omega

theorem left_lt_of_mem_runs {left right : List Char} {run : Run} (h : run ∈ runs left right) :
    run.left < left.length := by
  simp only [runs, List.mem_flatMap, List.mem_map, Prod.exists] at h
  obtain ⟨i, _, hi, _, _, _, rfl⟩ := h
  simpa using lt_of_mem_endings hi

theorem foldl_longer_eq_or_mem (start : Run) (rest : List Run) :
    rest.foldl Run.longer start = start ∨ rest.foldl Run.longer start ∈ rest := by
  induction rest generalizing start with
  | nil => exact Or.inl rfl
  | cons run rest ih =>
    rw [List.foldl_cons]
    rcases ih (start.longer run) with h | h
    · rw [h, Run.longer]
      split
      · exact Or.inr List.mem_cons_self
      · exact Or.inl rfl
    · exact Or.inr (List.mem_cons_of_mem _ h)

/-- A run that is not empty starts inside the first word. -/
theorem longestRun_left_lt {left right : List Char} (h : (longestRun left right).length ≠ 0) :
    (longestRun left right).left < left.length := by
  rcases foldl_longer_eq_or_mem {} (runs left right) with hstart | hmem
  · exact absurd (congrArg Run.length hstart) h
  · exact left_lt_of_mem_runs hmem

/-! ### Likeness -/

/-- How many characters two words have in common: those of their longest run, and those that the
parts before it and the parts after it have in common. -/
def matched (left right : List Char) : Nat :=
  if (longestRun left right).length = 0 then 0
  else
    let run := longestRun left right
    matched (left.take run.left) (right.take run.right) + run.length
      + matched (left.drop (run.left + run.length)) (right.drop (run.right + run.length))
termination_by left.length
decreasing_by
  all_goals
    have hlt := longestRun_left_lt ‹(longestRun left right).length ≠ 0›
    simp only [List.length_take, List.length_drop]
    omega

/-- How much alike two words are: the characters they have in common, counted in both, as a share of
all their characters. -/
structure Likeness where
  common : Nat
  total : Nat

namespace Likeness

/-- Whether it is three fifths at least. -/
def isClose (likeness : Likeness) : Bool := 3 * likeness.total ≤ 5 * likeness.common

/-- Whether the first is at most the second. -/
def atMost (first second : Likeness) : Bool :=
  first.common * second.total ≤ second.common * first.total

end Likeness

/-- How much a word is like another. -/
def likeness (word other : String) : Likeness :=
  ⟨2 * matched word.toList other.toList, word.length + other.length⟩

/-- The known words that are close to a word, at most as many as are wanted, in alphabetical order.
If there are more, the closest ones count, and of equally close ones the last in alphabetical
order. -/
def closest (count : Nat) (word : String) (known : List String) : List String :=
  let close := known.filter fun candidate => (likeness candidate word).isClose
  let ranked := close.mergeSort fun first second =>
    let closer := (likeness second word).atMost (likeness first word)
    let further := (likeness first word).atMost (likeness second word)
    closer && (!further || decide (second ≤ first))
  (ranked.take count).mergeSort fun first second => decide (first ≤ second)

end LetLang.Text
