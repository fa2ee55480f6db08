import LetLang.Machine.Instr
import LetLang.Proofs.Meaning.Interpreter
import Mathlib.Logic.Function.Basic

/-!
# What straight-line code does

Carrying out the instructions of a function. A machine value is a word of 64 bits or a double. The
state of the machine says what each register holds and what each stack slot holds, if anything was
stored there (`MachineState`). Registers and slots share their names: an instruction that makes one
of them has to give it a name that is not in use, and otherwise it cannot be carried out.

Words are computed with in two's complement, and division drops the fraction; there is no division by
zero. The operations on doubles are those that the meaning of programs is taken with, and nothing is
assumed of them. Code that uses a register or a slot before it has a value, or with another type than
it has, cannot be carried out either (`step`). A function runs up to its first `ret` (`run`).
-/

set_option autoImplicit false

namespace LetLang

/-! ### Values -/

/-- What a register or a slot holds. -/
inductive MachineValue
  | int (word : BitVec 64)
  | float (value : Binary64)
  deriving DecidableEq

/-- The type of a machine value. -/
def MachineValue.type : MachineValue → ValueType
  | int _ => .int
  | float _ => .float

variable (doubles : DoubleOps)

/-- The result of an operation on words, if it has one. -/
def ArithOp.onWords (left right : BitVec 64) : ArithOp → Option (BitVec 64)
  | sum => some (left + right)
  | difference => some (left - right)
  | product => some (left * right)
  | quotient => if right = 0 then none else some (left.sdiv right)

/-- The result of an operation on machine values, if it has one. -/
def ArithOp.onValues (op : ArithOp) : MachineValue → MachineValue → Option MachineValue
  | .int left, .int right => (op.onWords left right).map .int
  | .float left, .float right => some (.float (doubles.arith op left right))
  | _, _ => none

/-! ### States -/

/-- A stack slot: the type of what it can hold, and what it holds, if anything. -/
structure Cell where
  type : ValueType
  content? : Option MachineValue

/-- What the registers hold, and the stack slots that there are. -/
structure MachineState where
  registers : Lexeme → Option MachineValue := fun _ => none
  cells : Lexeme → Option Cell := fun _ => none

namespace MachineState

/-- Whether a name is not in use, neither for a register nor for a slot. -/
def isFree (state : MachineState) (name : Lexeme) : Bool :=
  (state.registers name).isNone && (state.cells name).isNone

/-- The state after a register was given a value. -/
def setRegister (state : MachineState) (name : Lexeme) (value : MachineValue) : MachineState :=
  { state with registers := Function.update state.registers name (some value) }

/-- The state after a slot was made or changed. -/
def setCell (state : MachineState) (name : Lexeme) (cell : Cell) : MachineState :=
  { state with cells := Function.update state.cells name (some cell) }

theorem isFree_iff {state : MachineState} {name : Lexeme} :
    state.isFree name = true ↔ state.registers name = none ∧ state.cells name = none := by
  rw [isFree, Bool.and_eq_true, Option.isNone_iff_eq_none, Option.isNone_iff_eq_none]

section

variable (state : MachineState) (name : Lexeme)

@[simp] theorem cells_setRegister (value : MachineValue) :
    (state.setRegister name value).cells = state.cells := rfl

@[simp] theorem registers_setCell (cell : Cell) :
    (state.setCell name cell).registers = state.registers := rfl

@[simp] theorem registers_setRegister (value : MachineValue) (other : Lexeme) :
    (state.setRegister name value).registers other =
      if other = name then some value else state.registers other :=
  Function.update_apply state.registers name (some value) other

@[simp] theorem cells_setCell (cell : Cell) (other : Lexeme) :
    (state.setCell name cell).cells other = if other = name then some cell else state.cells other :=
  Function.update_apply state.cells name (some cell) other

theorem setCell_setCell (first second : Cell) :
    (state.setCell name first).setCell name second = state.setCell name second := by
  unfold setCell
  rw [Function.update_idem]

theorem isFree_setRegister (value : MachineValue) {other : Lexeme} (hne : other ≠ name) :
    (state.setRegister name value).isFree other = state.isFree other := by
  simp [isFree, hne]

theorem isFree_setCell (cell : Cell) {other : Lexeme} (hne : other ≠ name) :
    (state.setCell name cell).isFree other = state.isFree other := by
  simp [isFree, hne]

end

/-- The value of an operand. A register has to hold one of the type that it is used with. -/
def valueOf (state : MachineState) : Operand → Option MachineValue
  | .int value => some (.int (BitVec.ofInt 64 value))
  | .float value => some (.float value)
  | .register type name => (state.registers name).filter fun value => value.type = type

/-! ### Instructions -/

/-- Carries out one instruction. -/
def step (instr : Instr) (state : MachineState) : Option MachineState :=
  match instr with
  | .alloca slot type => if state.isFree slot then some (state.setCell slot ⟨type, none⟩) else none
  | .store value slot => do
    let content ← state.valueOf value
    let cell ← state.cells slot
    if cell.type = content.type then some (state.setCell slot { cell with content? := content })
    else none
  | .load register type slot => do
    let cell ← state.cells slot
    let content ← cell.content?
    if cell.type = type ∧ state.isFree register then some (state.setRegister register content)
    else none
  | .arith register op type left right => do
    let leftValue ← state.valueOf left
    let rightValue ← state.valueOf right
    let result ← op.onValues doubles leftValue rightValue
    if leftValue.type = type ∧ state.isFree register then some (state.setRegister register result)
    else none
  | .ret _ => none

/-- Carries out instructions one after the other, none of which ends the function. -/
def stepAll (code : List Instr) (state : MachineState) : Option MachineState :=
  code.foldlM (fun middle instr => step doubles instr middle) state

/-- Runs the instructions of a function and yields the value that it returns. -/
def run : List Instr → MachineState → Option MachineValue
  | [], _ => none
  | .ret value :: _, state => state.valueOf value
  | instr :: rest, state => (step doubles instr state).bind (run rest)

/-! ### Code after code -/

section

variable {doubles} {state after : MachineState}

theorem stepAll_concat {code : List Instr} {middle : MachineState} {instr : Instr}
    (hcode : stepAll doubles code state = some middle)
    (hinstr : step doubles instr middle = some after) :
    stepAll doubles (code ++ [instr]) state = some after := by
  unfold stepAll at hcode ⊢
  rw [List.foldlM_append, hcode]
  simpa using hinstr

theorem run_cons {instr : Instr} {rest : List Instr} {middle : MachineState}
    (hstep : step doubles instr state = some middle) :
    run doubles (instr :: rest) state = run doubles rest middle := by
  cases instr with
  | ret value => cases hstep
  | alloca slot type => rw [run, hstep, Option.bind_some]; simp
  | store value slot => rw [run, hstep, Option.bind_some]; simp
  | load register type slot => rw [run, hstep, Option.bind_some]; simp
  | arith register op type left right => rw [run, hstep, Option.bind_some]; simp

/-- Running a function from its start is running what is left of it from where the instructions
before it lead to. -/
theorem run_append {rest : List Instr} :
    ∀ {code : List Instr} {state : MachineState}, stepAll doubles code state = some after →
      run doubles (code ++ rest) state = run doubles rest after := by
  intro code
  induction code with
  | nil =>
    intro state hcode
    obtain rfl := Option.some.inj hcode
    rfl
  | cons instr code ih =>
    intro state hcode
    unfold stepAll at hcode
    rw [List.foldlM_cons] at hcode
    obtain ⟨middle, hstep, hrest⟩ := Option.bind_eq_some_iff.mp hcode
    rw [List.cons_append, run_cons hstep]
    exact ih hrest

end

end MachineState

end LetLang
