import LetLang.Number.Binary64
import LetLang.Syntax.Tree
import LetLang.Text.Padding

/-!
# Instructions and their assembly text

The instructions that programs are compiled to: straight-line code over registers and stack slots,
written as LLVM assembly. Registers and slots are known by their names. The slot of a variable that
was declared without a name has none, so an instruction that refers to it has no text. The text of a
module with one function, if all its instructions have one, is `moduleText?`.
-/

set_option autoImplicit false

namespace LetLang

/-- The types of machine values. -/
inductive ValueType
  | int
  | float
  deriving DecidableEq

namespace ValueType

/-- The name of a type in messages. -/
def name : ValueType → String
  | int => "int"
  | float => "float"

/-- The name of a type in assembly. -/
def text : ValueType → String
  | int => "i64"
  | float => "double"

end ValueType

/-- A value that an instruction uses: a constant, or what a register holds. -/
inductive Operand
  | int (value : Int)
  | float (value : Binary64)
  | register (type : ValueType) (name : Lexeme)
  deriving DecidableEq

/-- The type of an operand. -/
def Operand.type : Operand → ValueType
  | int _ => .int
  | float _ => .float
  | register type _ => type

/-- One instruction. -/
inductive Instr
  /-- Makes a stack slot. -/
  | alloca (slot : Lexeme) (type : ValueType)
  /-- Puts a value into a slot. -/
  | store (value : Operand) (slot : Lexeme)
  /-- Puts what a slot holds into a register. -/
  | load (register : Lexeme) (type : ValueType) (slot : Lexeme)
  /-- Puts the result of an operation on two values of a type into a register. -/
  | arith (register : Lexeme) (op : ArithOp) (type : ValueType) (left right : Operand)
  /-- Ends the function with a value. -/
  | ret (value : Operand)
  deriving DecidableEq

/-! ### Assembly text -/

/-- The name of an operation on values of a type. -/
def opcode : ArithOp → ValueType → String
  | .sum, .int => "add"
  | .difference, .int => "sub"
  | .product, .int => "mul"
  | .quotient, .int => "sdiv"
  | .sum, .float => "fadd"
  | .difference, .float => "fsub"
  | .product, .float => "fmul"
  | .quotient, .float => "fdiv"

/-- A character inside a quoted name. -/
def nameChar (c : Char) : List Char :=
  if c = '\\' then ['\\', '5', 'c'] else if c = '"' then ['\\', '2', '2'] else [c]

/-- A reference to a register or slot of the given name. -/
def reference (name : String) : String :=
  "%\"" ++ String.ofList (name.toList.flatMap nameChar) ++ "\""

/-- A reference to a register or slot, if it has a name. -/
def reference? (name : Lexeme) : Option String := name.map reference

namespace Operand

/-- An operand without its type. A double is written by its bits in hexadecimal, right-aligned in a
field of sixteen characters. -/
def text? : Operand → Option String
  | int value => some (toString value)
  | float value => some (Text.padLeft ' ' 16 ("0x" ++ Text.hexText value.bits.toNat))
  | register _ name => reference? name

/-- An operand with its type. -/
def typedText? (operand : Operand) : Option String := do
  return operand.type.text ++ " " ++ (← operand.text?)

end Operand

/-- A pointer to a slot of a type. -/
def pointerText? (type : ValueType) (slot : Lexeme) : Option String := do
  return type.text ++ "* " ++ (← reference? slot)

/-- The line of an instruction, if all that it refers to has a name. -/
def Instr.text? : Instr → Option String
  | alloca slot type => do return (← reference? slot) ++ " = alloca " ++ type.text
  | store value slot => do
    return "store " ++ (← value.typedText?) ++ ", " ++ (← pointerText? value.type slot)
  | load register type slot => do
    return (← reference? register) ++ " = load " ++ type.text ++ ", " ++ (← pointerText? type slot)
  | arith register op type left right => do
    return (← reference? register) ++ " = " ++ opcode op type ++ " " ++ type.text ++ " "
      ++ (← left.text?) ++ ", " ++ (← right.text?)
  | ret value => do return "ret " ++ (← value.typedText?)

/-- The name of the label at which the function starts. -/
def entryLabel : String := "entry"

/-- The text of a module whose function `main` consists of the given lines. -/
def moduleFrame (name : String) (lines : List String) : String :=
  "; ModuleID = \"" ++ name ++ "\"\n"
    ++ "target triple = \"unknown-unknown-unknown\"\n"
    ++ "target datalayout = \"\"\n"
    ++ "\n"
    ++ "define i64 @\"main\"()\n"
    ++ "\x7b\n"
    ++ entryLabel ++ ":\n"
    ++ String.join (lines.map fun line => "  " ++ line ++ "\n")
    ++ "\x7d\n"

/-- The text of a module whose function `main` consists of the given instructions, if all that they
refer to has a name. -/
def moduleText? (name : String) (code : List Instr) : Option String :=
  (code.mapM Instr.text?).map (moduleFrame name)

end LetLang
