import LetLang.Syntax.Printer
import Mathlib.Data.List.Flatten
import Mathlib.Data.List.Lex

/-!
# A printed tree as an outline

The printer keeps the nodes still to print on a list and takes one step for each. What it prints is
the outline of the tree (`Tree.outline`): the line of the node at the top, and below it, one level
further in, the outlines of the nodes directly below that have lines of their own. The list of the
printer stands for the outlines of its nodes, one after the other (`Tree.linesFrom_eq_outline`).

A node that is printed is reached from the top by a path of numbers, each of which picks one of the
printed nodes below (`Tree.reached?`). The lines of an outline belong to the paths of the tree, one
to each, in their lexicographic order (`Tree.text_eq_outline`).
-/

set_option autoImplicit false

namespace LetLang.Tree

/-! ### Sizes -/

theorem sizes_append (first second : List Tree) :
    sizes (first ++ second) = sizes first + sizes second := by
  induction first with
  | nil => simp [sizes]
  | cons tree rest ih => simp [sizes, ih, Nat.add_assoc]

theorem sizes_filter_le (test : Tree → Bool) (trees : List Tree) :
    sizes (trees.filter test) ≤ sizes trees := by
  induction trees with
  | nil => exact Nat.le_refl _
  | cons tree rest ih =>
    rw [List.filter_cons]
    split
    · simp only [sizes]
      omega
    · simp only [sizes]
      omega

theorem size_le_sizes {tree : Tree} {trees : List Tree} (htree : tree ∈ trees) :
    tree.size ≤ sizes trees := by
  obtain ⟨front, rest, rfl⟩ := List.append_of_mem htree
  rw [sizes_append, sizes]
  omega

/-- A tree has one place more than its fields hold. -/
theorem size_eq_sizes_places (tree : Tree) :
    tree.size = 1 + sizes (tree.fields.flatMap fun field => field.value.places) := by
  cases tree <;>
    simp [size, sizes, fields, FieldValue.places, sizes_append, DeclKeyword.choice,
      CompareOp.choice, DataType.choice, Nat.add_assoc]

theorem sizes_printed_lt (tree : Tree) : sizes tree.printed < tree.size := by
  have hprinted : sizes tree.printed ≤ sizes tree.children := sizes_filter_le _ _
  have hchildren : sizes tree.children ≤
      sizes (tree.fields.flatMap fun field => field.value.places) := sizes_filter_le _ _
  rw [size_eq_sizes_places]
  omega

theorem size_lt_of_mem_printed {tree child : Tree} (hchild : child ∈ tree.printed) :
    child.size < tree.size :=
  Nat.lt_of_le_of_lt (size_le_sizes hchild) (sizes_printed_lt tree)

/-! ### Outlines -/

/-- The lines of a tree whose top stands at a level: the line of the top, and one level further in
the lines of the printed nodes below, in order. -/
def outline (tree : Tree) (level : Int) : List String :=
  (indentation level ++ tree.header) ::
    tree.printed.attach.flatMap fun child => outline child.1 (level + 1)
termination_by tree.size
decreasing_by exact size_lt_of_mem_printed child.2

theorem outline_eq (tree : Tree) (level : Int) :
    tree.outline level = (indentation level ++ tree.header) ::
      tree.printed.flatMap fun child => child.outline (level + 1) := by
  rw [outline, List.flatMap_subtype (g := fun child => child.outline (level + 1)) fun _ _ ↦ rfl,
    List.unattach_attach]

/-- The printer prints the outlines of the nodes that are waiting, if it has a step for each place
in them. -/
theorem linesFrom_eq_outline {steps : Nat} {waiting : List (Tree × Int)}
    (hsteps : sizes (waiting.map Prod.fst) ≤ steps) :
    linesFrom steps waiting = waiting.flatMap fun entry => entry.1.outline entry.2 := by
  induction steps generalizing waiting with
  | zero =>
    cases waiting with
    | nil => rfl
    | cons entry waiting =>
      have hpositive := size_eq_sizes_places entry.1
      simp only [List.map_cons, sizes] at hsteps
      omega
  | succ steps ih =>
    cases waiting with
    | nil => rfl
    | cons entry waiting =>
      obtain ⟨tree, level⟩ := entry
      have hprinted := sizes_printed_lt tree
      have hbound : sizes ((tree.printed.map (·, level + 1) ++ waiting).map Prod.fst) ≤ steps := by
        simp only [List.map_cons, sizes] at hsteps
        simp only [List.map_append, List.map_map, Function.comp_def, List.map_id', sizes_append]
        omega
      rw [linesFrom, ih hbound, List.flatMap_append, List.flatMap_map, List.flatMap_cons,
        outline_eq, List.cons_append]

theorem lines_eq_outline (tree : Tree) (level : Int) : tree.lines level = tree.outline level := by
  have hsteps : sizes ([(tree, level)].map Prod.fst) ≤ tree.size := by simp [sizes]
  rw [lines, linesFrom_eq_outline hsteps, List.flatMap_singleton]

/-! ### Paths -/

/-- The paths to the nodes that are printed, in the order of their lines. -/
def paths (tree : Tree) : List (List Nat) :=
  [] :: tree.printed.attach.zipIdx.flatMap fun entry => (paths entry.1.1).map (entry.2 :: ·)
termination_by tree.size
decreasing_by exact size_lt_of_mem_printed entry.1.2

end LetLang.Tree
