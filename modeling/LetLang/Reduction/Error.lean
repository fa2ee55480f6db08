import LetLang.Diagnostic
import LetLang.Scope.Table

/-!
# Errors of reduction

Why a tree cannot be reduced. A semantic error is one that the program is to blame for, and has a
report; the other failures concern literals that cannot be converted at all, and places of the tree
that were left empty.
-/

set_option autoImplicit false

namespace LetLang

/-- What is wrong with a literal. -/
inductive LiteralFault
  /-- It is not digits with an optional fraction. -/
  | notDecimal
  /-- It has a fraction although an integer is needed. -/
  | fractional
  /-- It is an integer beyond 64 bits. -/
  | outOfRange
  deriving DecidableEq

/-- The explanation of a fault. -/
def LiteralFault.help : LiteralFault → String
  | notDecimal => "Not a decimal number."
  | fractional => "An int literal cannot have a fractional part."
  | outOfRange => "The value does not fit in a 64-bit signed integer."

/-- An error in the meaning of a program. -/
inductive SemanticError
  /-- A literal does not fit the type, given by its name, that it is read as. -/
  | invalidLiteral (lexeme : String) (typeName : String) (fault : LiteralFault)
  /-- An operand of an operation is not a number. -/
  | irreducible (operation : String) (operand : Tree)
  /-- The operands of an operation are numbers of different sorts. -/
  | mismatched (operation : String) (left right : Number)
  /-- An integer is divided by zero. -/
  | divisionByZero
  /-- The tree has more levels than are walked. -/
  | tooDeep

/-- A long text is cut and marked as cut when it is quoted in a message. -/
def excerpt (text : String) : String :=
  if 32 < text.length then String.ofList (text.toList.take 29) ++ "..." else text

namespace SemanticError

/-- The code of an error. -/
def code : SemanticError → String
  | invalidLiteral .. => "S001"
  | irreducible .. => "S002"
  | mismatched .. => "S003"
  | divisionByZero => "S004"
  | tooDeep => "S005"

/-- What an error says. -/
def message : SemanticError → String
  | invalidLiteral lexeme typeName _ =>
    "Failed to parse numeric literal '" ++ excerpt lexeme ++ "' as " ++ typeName
  | irreducible operation operand =>
    "Expected a reducible number in " ++ operation ++ ", found " ++ operand.className
  | mismatched operation left right =>
    "Mismatched types in " ++ operation ++ ": " ++ left.sortName ++ " and " ++ right.sortName
  | divisionByZero => "Integer division by zero"
  | tooDeep => "Expression too deep to reduce"

/-- The explanation of an error. -/
def help : SemanticError → String
  | invalidLiteral _ _ fault => fault.help
  | irreducible .. => "Arithmetic operands must reduce to constant numbers."
  | mismatched .. =>
    "Both operands of an arithmetic operation must have the same numeric type."
  | divisionByZero => "The divisor of this division folds to the integer 0."
  | tooDeep =>
    "The parse tree nests deeper than the reducer can walk, usually because of a very long chain "
      ++ "of arithmetic operators."

/-- What to do about an error. -/
def suggestions : SemanticError → List String
  | invalidLiteral _ typeName _ =>
    ["Change the declared type to match the literal",
     "Write the literal so it is a valid " ++ typeName]
  | irreducible .. => ["Reduce in lenient mode to keep non-constant arithmetic"]
  | mismatched _ left _ => ["Write both operands as " ++ left.sortName ++ " values"]
  | divisionByZero => []
  | tooDeep => ["Split the expression across several declarations"]

/-- The report of an error. -/
def diagnostic (error : SemanticError) : Diagnostic :=
  { message := error.message, code? := some error.code, help? := some error.help
    suggestions := error.suggestions }

/-- The class of the node that an error is about, if it is about one. -/
def nodeClass? : SemanticError → Option String
  | invalidLiteral .. => none
  | irreducible _ operand => some operand.className
  | mismatched _ _ right => some right.tree.className
  | divisionByZero => some (Tree.arithClass .quotient)
  | tooDeep => none

/-- The codes of semantic errors and what they stand for. -/
def codeTable : List (String × String) :=
  [("S001", "Invalid numeric literal for type"), ("S002", "Expected a reducible number"),
   ("S003", "Mismatched types"), ("S004", "Division by zero"), ("S005", "Expression too deep")]

end SemanticError

/-- Why a reduction stopped. -/
inductive ReductionFailure
  /-- The program has an error. -/
  | semantic (error : SemanticError)
  /-- An integer literal has more digits than are converted. -/
  | tooManyDigits (count : Nat)
  /-- A literal has no text. -/
  | noLexeme
  /-- A node to reduce was left out of the tree. -/
  | absentNode

end LetLang
