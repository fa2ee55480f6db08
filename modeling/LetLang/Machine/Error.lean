import LetLang.Diagnostic
import LetLang.Machine.Instr
import LetLang.Syntax.Field

/-!
# Errors of compilation

Why a tree cannot be compiled. An emission error is one that the program is to blame for, and has a
report; the other failures are a statement in the place of an expression and a place that was left
empty, neither of which a parsed program has.
-/

set_option autoImplicit false

namespace LetLang

/-- An error in compiling a program, with the node that it is about. -/
inductive EmissionError
  /-- Nodes of this kind are not compiled. -/
  | unsupportedNode (node : Tree)
  /-- Values of this declared type are not stored. -/
  | unsupportedType (type : Tree) (node : Tree)
  /-- A value has another type than the one needed. -/
  | mismatched (needed found : ValueType) (node : Tree)
  /-- A name is used that has no slot. -/
  | unknownName (name : Lexeme) (node : Tree)
  /-- The tree has more levels than are walked. -/
  | tooDeep

/-- A kind of node in words. -/
def kindWords (kind : String) : String := kind.map fun c => if c = '_' then ' ' else c

namespace EmissionError

/-- The code of an error. -/
def code : EmissionError → String
  | unsupportedNode _ => "C001"
  | unsupportedType .. => "C002"
  | mismatched .. => "C003"
  | unknownName .. => "C004"
  | tooDeep => "C005"

/-- What an error says. -/
def message : EmissionError → String
  | unsupportedNode node =>
    "Code generation is not supported for " ++ kindWords node.kind ++ " nodes"
  | unsupportedType type _ => "Cannot store a value of type " ++ type.inline
  | mismatched needed found _ =>
    "Mismatched types: expected " ++ needed.name ++ ", found " ++ found.name
  | unknownName name _ => "Unknown identifier '" ++ name.shown ++ "'"
  | tooDeep => "Expression too deep to compile"

/-- The explanation of an error, if it has one. -/
def help? : EmissionError → Option String
  | unsupportedNode (.literal _) =>
    some "Number literals must be resolved by the reducer before code generation."
  | unsupportedNode _ => some "Only straight-line integer and float arithmetic can be compiled."
  | unsupportedType .. => some "Only int, float and number values have a machine representation."
  | mismatched .. => none
  | unknownName name _ => some ("Declare '" ++ name.shown ++ "' with let or mut before using it.")
  | tooDeep => some "The tree nests deeper than the backend can walk."

/-- What to do about an error. -/
def suggestions : EmissionError → List String
  | tooDeep => ["Split the expression across several declarations"]
  | _ => []

/-- The report of an error. -/
def diagnostic (error : EmissionError) : Diagnostic :=
  { message := error.message, code? := some error.code, help? := error.help?
    suggestions := error.suggestions }

/-- The class of the node that an error is about, if it is about one. -/
def nodeClass? : EmissionError → Option String
  | unsupportedNode node => some node.className
  | unsupportedType _ node => some node.className
  | mismatched _ _ node => some node.className
  | unknownName _ node => some node.className
  | tooDeep => none

/-- The codes of emission errors and what they stand for. -/
def codeTable : List (String × String) :=
  [("C001", "Unsupported node"), ("C002", "Unsupported type"), ("C003", "Mismatched types"),
   ("C004", "Unknown identifier"), ("C005", "Expression too deep")]

end EmissionError

/-- Why compilation stopped. -/
inductive EmissionFailure
  /-- The program has an error. -/
  | emission (error : EmissionError)
  /-- A value was needed of a node that has none. -/
  | noValue
  /-- A node to compile was left out of the tree. -/
  | absentNode

end LetLang
