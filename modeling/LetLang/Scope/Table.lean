import LetLang.Number.Number
import LetLang.Syntax.Field

/-!
# The table of declared names

The table of declared names: a stack of frames, one for each scope that is open. A frame holds, for
each name declared in its scope, all the bindings of the name in the order of declaration; a later
declaration does not replace an earlier one. The names of a frame are in the order of their first
declaration. A name is looked up in the innermost frame that has it, and means its latest binding
there (`Table.lookup?`).

A table starts without any frame; the first declaration opens one.
-/

set_option autoImplicit false

namespace LetLang

/-- The number that a tree is, if it is one. -/
def Tree.number? : Tree → Option Number
  | integer value => some (.int value)
  | float value => some (.float value)
  | _ => none

/-- A number as a tree. -/
def Number.tree : Number → Tree
  | int value => .integer value
  | float value => .float value

/-- One declaration of a name. -/
structure Binding where
  isMutable : Bool
  type : Tree
  value : Tree

/-- A binding as it is shown: a value that is no number is shown by its class alone. -/
def Binding.text (binding : Binding) : String :=
  let keyword := if binding.isMutable then "mut" else "let"
  let value :=
    match binding.value.number? with
    | some number => number.text
    | none => binding.value.className
  keyword ++ " " ++ binding.type.inline ++ " = " ++ value

/-- The names declared in one scope, each with its bindings, the oldest first. -/
abbrev Frame := List (Lexeme × List Binding)

/-- A frame with one more binding of a name. -/
def Frame.add (name : Lexeme) (binding : Binding) : Frame → Frame
  | [] => [(name, [binding])]
  | (other, bindings) :: rest =>
    if other = name then (other, bindings ++ [binding]) :: rest
    else (other, bindings) :: Frame.add name binding rest

/-- The frames of the open scopes, the innermost first. -/
structure Table where
  frames : List Frame := []

namespace Table

/-- The number of open scopes. -/
def depth (table : Table) : Nat := table.frames.length

/-- Opens a scope. -/
def push (table : Table) : Table := ⟨[] :: table.frames⟩

/-- The frame of the innermost scope. -/
def innermost? (table : Table) : Option Frame := table.frames.head?

/-- Closes the innermost scope; a table without scopes stays as it is. -/
def pop (table : Table) : Table := ⟨table.frames.tail⟩

/-- Records a binding in the innermost scope, opening one if there is none. -/
def declare (table : Table) (name : Lexeme) (binding : Binding) : Table :=
  match table.frames with
  | [] => ⟨[Frame.add name binding []]⟩
  | frame :: outer => ⟨Frame.add name binding frame :: outer⟩

/-- The latest binding of a name in the innermost frame in which it has one. -/
def lookup? (table : Table) (name : Lexeme) : Option Binding :=
  table.frames.findSome? fun frame => (frame.lookup name).bind List.getLast?

/-- All bindings of a name in the innermost frame that has it, the oldest first. -/
def bindings (table : Table) (name : Lexeme) : List Binding :=
  (table.frames.findSome? fun frame => frame.lookup name).getD []

/-- Whether a name has a binding. -/
def contains (table : Table) (name : Lexeme) : Bool := (table.lookup? name).isSome

/-- Carries out something in a scope of its own, which is closed afterwards, whatever came of it. -/
def withScope {α : Type} (table : Table) (body : Table → α × Table) : α × Table :=
  let (outcome, after) := body table.push
  (outcome, after.pop)

/-- The lines of a frame. -/
def frameLines (frame : Frame) : List String :=
  frame.flatMap fun (name, bindings) =>
    bindings.map fun binding => "  " ++ Lexeme.shown name ++ ": " ++ binding.text

/-- The lines of frames that are numbered from `level` on, the outermost first. -/
def linesFrom (level : Nat) : List Frame → List String
  | [] => []
  | frame :: inner =>
    ("scope " ++ toString level ++ ":") :: frameLines frame ++ linesFrom (level + 1) inner

/-- A table as it is shown, the outermost scope first. -/
def text (table : Table) : String := "\n".intercalate (linesFrom 0 table.frames.reverse)

end Table

end LetLang
