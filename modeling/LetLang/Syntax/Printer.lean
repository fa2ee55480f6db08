import LetLang.Syntax.Field

/-!
# Printing trees

A tree is printed one node a line. The line of a node holds its class and, in parentheses, those of
its fields that are no nodes; a type counts as such a field, wherever it stands. The other nodes
below follow, two spaces further in. The walk keeps the nodes still to print on a list
(`Tree.linesFrom`), so the depth of a tree is no obstacle; as many steps as the tree has places for
nodes (`Tree.size`) finish it.
-/

set_option autoImplicit false

namespace LetLang

/-! ### Headers -/

/-- A field as it is shown on the line of its node, if it is: types inline, and absent texts not at
all. -/
def Field.shown? : Field → Option String
  | ⟨label, .node tree⟩ => if tree.isType then some (labelled label tree.inline) else none
  | ⟨_, .nodes _⟩ => none
  | ⟨label, .lexeme text⟩ => text.map fun text => labelled label (Text.quoted text)
  | ⟨label, .number text⟩ => some (labelled label text)
  | ⟨label, .choice _ _ text⟩ => some (labelled label text)

namespace Tree

/-- The line of a node, without indentation. -/
def header (tree : Tree) : String :=
  match tree.fields.filterMap Field.shown? with
  | [] => tree.className
  | shown => tree.className ++ "(" ++ ", ".intercalate shown ++ ")"

/-! ### Lines -/

/-- The nodes below a node that have lines of their own: all but types. -/
def printed (tree : Tree) : List Tree := tree.children.filter (!·.isType)

/-- Two spaces for each level; none for a level that is not positive. -/
def indentation (level : Int) : String := String.ofList (List.replicate (2 * level.toNat) ' ')

/-- The lines of the nodes still to print, each with its level, in at most the given number of
steps. A node's own children come before what was already waiting. -/
def linesFrom : Nat → List (Tree × Int) → List String
  | 0, _ => []
  | _ + 1, [] => []
  | steps + 1, (tree, level) :: waiting =>
    (indentation level ++ tree.header) ::
      linesFrom steps (tree.printed.map (·, level + 1) ++ waiting)

/-- The lines of a tree whose top stands at a level. -/
def lines (tree : Tree) (level : Int) : List String := linesFrom tree.size [(tree, level)]

/-- A printed tree, without a line end after its last line. -/
def text (tree : Tree) (level : Int) : String := "\n".intercalate (tree.lines level)

/-- A tree as a result: a type or a parameter on one line, any other printed. -/
def shown (tree : Tree) : String :=
  match tree with
  | basicType _ | functionType .. | parameter .. => tree.inline
  | tree => tree.text 0

end Tree

end LetLang
