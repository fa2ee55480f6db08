import LetLang.Machine.Error
import LetLang.Machine.Names
import LetLang.Trace

/-!
# Compiling to straight-line code

Compiling a program to straight-line code. Every declaration makes a stack slot and stores its value
there, also when its name was declared before; an assignment stores into the slot that its name has
now; the use of a name loads from it. The function returns the value that the last statement with an
integer value had, and zero if there was none.

Only numbers, names, parentheses, negation and arithmetic are compiled. The walk goes down a fixed
number of levels (`Emission.depthLimit`).
-/

set_option autoImplicit false

namespace LetLang

/-- The slot of a variable. -/
structure Slot where
  name : Lexeme
  type : ValueType
  deriving DecidableEq

/-- What compilation changes: the names taken, the instructions so far with the last one first, the
variables in the order of their first declaration, and the value to return. -/
structure EmissionState where
  names : Names := {}
  code : List Instr := []
  slots : List (Lexeme × Slot) := []
  result? : Option Operand := none

/-- A part of a compilation. -/
abbrev Emission (α : Type) : Type := EStateM EmissionFailure EmissionState α

/-- The variables after a name was given a slot: a name that is already there keeps its place. -/
def setSlot (name : Lexeme) (slot : Slot) : List (Lexeme × Slot) → List (Lexeme × Slot)
  | [] => [(name, slot)]
  | (other, old) :: rest =>
    if other = name then (name, slot) :: rest else (other, old) :: setSlot name slot rest

namespace Emission

/-- The number of levels that a compilation goes down a tree, every node on the way counting as
one. -/
def depthLimit : Nat := 243

/-- Stops with an error. -/
def fail {α : Type} (error : EmissionError) : Emission α := throw (.emission error)

/-- Takes a free name made from the one asked for. -/
def freshName (base : Lexeme) : Emission Lexeme := do
  let state ← get
  let (name, names) := state.names.fresh base
  set { state with names := names }
  return name

/-- Adds an instruction. -/
def append (instr : Instr) : Emission Unit :=
  modify fun state => { state with code := instr :: state.code }

/-- Makes a slot. -/
def alloca (base : Lexeme) (type : ValueType) : Emission Slot := do
  let name ← freshName base
  append (.alloca name type)
  return ⟨name, type⟩

/-- Stores a value. A store has no result, yet it takes a name. -/
def store (value : Operand) (slot : Slot) : Emission Unit := do
  let _ ← freshName (some "")
  append (.store value slot.name)

/-- Loads the value of a slot. -/
def load (base : String) (slot : Slot) : Emission Operand := do
  let name ← freshName (some base)
  append (.load name slot.type slot.name)
  return .register slot.type name

/-- Computes with two values of a type. -/
def compute (base : String) (op : ArithOp) (type : ValueType) (left right : Operand) :
    Emission Operand := do
  let name ← freshName (some base)
  append (.arith name op type left right)
  return .register type name

/-- What the register of an operation is called. -/
def resultName : ArithOp → String
  | .sum => "sum"
  | .difference => "diff"
  | .product => "prod"
  | .quotient => "quot"

/-- The slot of a name that a node uses. -/
def slotOf (name : Lexeme) (node : Tree) : Emission Slot := do
  match (← get).slots.lookup name with
  | some slot => return slot
  | none => fail (.unknownName name node)

/-- The type of the slot for a value that is declared with a type. -/
def storageType (declared : Tree) (found : ValueType) (node : Tree) : Emission ValueType :=
  match declared with
  | .basicType .number => return found
  | .basicType .int => if found = .int then return found else fail (.mismatched .int found node)
  | .basicType .float =>
    if found = .float then return found else fail (.mismatched .float found node)
  | _ => fail (.unsupportedType declared node)

/-- The value of a node, which has to have one. -/
def needed (value? : Option Operand) : Emission Operand :=
  match value? with
  | some value => return value
  | none => throw .noValue

/-- Changes the sign of a value by subtracting it from a zero: from the negative zero for doubles,
so that zeros come out right too. -/
def negate (value : Operand) : Emission Operand :=
  match value.type with
  | .int => compute "neg" .difference .int (.int 0) value
  | .float => compute "fneg" .difference .float (.float ⟨Binary64.signBit⟩) value

/-- Compiles a tree of at most the given number of levels, and yields its value if it has one. -/
def visit : Nat → Tree → Emission (Option Operand)
  | 0, _ => fail .tooDeep
  | levels + 1, tree =>
    match tree with
    | .absent => throw .absentNode
    | .program statements => do
      statements.forM fun statement => do let _ ← visit levels statement
      return none
    | .declaration _ name type value => do
      let operand ← needed (← visit levels value)
      let slotType ← storageType type operand.type tree
      let slot ← alloca name slotType
      store operand slot
      modify fun state => { state with slots := setSlot name slot state.slots }
      return none
    | .assignment name value => do
      let slot ← slotOf name tree
      let operand ← needed (← visit levels value)
      if operand.type = slot.type then store operand slot
      else fail (.mismatched slot.type operand.type tree)
      return none
    | .statement expression => do
      let operand ← needed (← visit levels expression)
      if operand.type = .int then modify fun state => { state with result? := some operand }
      return none
    | .integer value => return some (.int value)
    | .float value => return some (.float value)
    | .identifier name => do
      let slot ← slotOf name tree
      return some (← load (name.shown ++ ".load") slot)
    | .parenthesized expression => visit levels expression
    | .negation factor => do
      return some (← negate (← needed (← visit levels factor)))
    | .arith op left right => do
      let left? ← visit levels left
      let right? ← visit levels right
      let leftOperand ← needed left?
      let rightOperand ← needed right?
      if leftOperand.type = rightOperand.type then
        return some (← compute (resultName op) op leftOperand.type leftOperand rightOperand)
      else fail (.mismatched leftOperand.type rightOperand.type tree)
    | _ => fail (.unsupportedNode tree)

end Emission

/-- The state at the start of a function: its label takes the first name. -/
def EmissionState.initial : EmissionState := { names := (({} : Names).fresh (some entryLabel)).2 }

/-- What came of a compilation: the instructions of the function, and the state left behind also
when there are none. -/
structure EmissionOutcome where
  result : Except EmissionFailure (List Instr)
  state : EmissionState

/-- Compiles a program. -/
def emit (program : Tree) : EmissionOutcome :=
  match Emission.visit Emission.depthLimit program .initial with
  | .ok _ state =>
    let final := state.result?.getD (.int 0)
    ⟨.ok (state.code.reverse ++ [.ret final]), state⟩
  | .error failure state => ⟨.error failure, state⟩

/-- The event of having compiled a function. -/
def EmissionState.event (state : EmissionState) : Event := .emitted state.slots.length

end LetLang
