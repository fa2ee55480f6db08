import LetLang.Machine.Emit
import LetLang.Proofs.Machine.Execution
import LetLang.Proofs.Machine.Names
import LetLang.Proofs.Run

/-!
# The machine follows the program

How the state of the machine is tied to the state of compilation and to the variables of a program
while code is added. A machine value stands for a number (`Represents`). The code so far has been
carried out, and every name that is in use is among those taken, so that a fresh name is free
(`Reaches`). The slot of a name holds the value of the variable that the name means, and different
names have different slots (`Stored`). The code of an expression only gives values to fresh registers
(`Adds`), and a register never changes once it has a value (`Extends`).
-/

set_option autoImplicit false

namespace LetLang

variable {doubles : DoubleOps}

/-! ### Numbers in the machine -/

/-- Whether changing a sign is the same as subtracting from the negative zero. -/
def DoubleOps.NegatesBySubtraction (doubles : DoubleOps) : Prop :=
  ∀ value, doubles.negate value = doubles.arith .difference ⟨Binary64.signBit⟩ value

/-- Whether a machine value stands for a number. Doubles are followed exactly only if code that
subtracts from the negative zero changes the sign; integers do not depend on them. -/
def Represents (doubles : DoubleOps) : Number → MachineValue → Prop
  | .int value, .int word => word.toInt = value
  | .float value, .float held => doubles.NegatesBySubtraction → held = value
  | _, _ => False

theorem represents_ofInt {value : Int} (hfits : fitsInt64 value = true) :
    Represents doubles (.int value) (.int (BitVec.ofInt 64 value)) := by
  have hbounds : -2 ^ 63 ≤ value ∧ value < 2 ^ 63 := by
    unfold fitsInt64 int64Min int64Max at hfits
    rw [Bool.and_eq_true, decide_eq_true_iff, decide_eq_true_iff] at hfits
    omega
  change (BitVec.ofInt 64 value).toInt = value
  exact BitVec.toInt_ofInt_eq_self (by decide) hbounds.1 hbounds.2

/-- Arithmetic on words is arithmetic on integers, brought back into their range. -/
theorem ArithOp.toInt_of_onWords (op : ArithOp) (left right : BitVec 64)
    (hdivisor : ¬ (op = .quotient ∧ right.toInt = 0)) :
    ∃ word, op.onWords left right = some word ∧
      word.toInt = (op.onIntegers left.toInt right.toInt).bmod 0x10000000000000000 := by
  cases op with
  | sum => exact ⟨left + right, rfl, BitVec.toInt_add left right⟩
  | difference => exact ⟨left - right, rfl, BitVec.toInt_sub⟩
  | product => exact ⟨left * right, rfl, BitVec.toInt_mul left right⟩
  | quotient =>
    have hright : right ≠ 0 := by
      rintro rfl
      exact hdivisor ⟨rfl, rfl⟩
    exact ⟨left.sdiv right, if_neg hright, BitVec.toInt_sdiv left right⟩

/-- An operation on machine values of one type follows the operation on the numbers that they stand
for, unless that divides by zero. -/
theorem ArithOp.represents_onValues (op : ArithOp) {leftNumber rightNumber : Number}
    {left right : MachineValue} (hleft : Represents doubles leftNumber left)
    (hright : Represents doubles rightNumber right) (htype : left.type = right.type) :
    op.meaning doubles leftNumber rightNumber = .error .divisionByZero ∨
      ∃ number result, op.meaning doubles leftNumber rightNumber = .ok number ∧
        op.onValues doubles left right = some result ∧ result.type = left.type ∧
        Represents doubles number result := by
  cases left with
  | int leftWord =>
    cases right with
    | float _ => cases htype
    | int rightWord =>
      cases leftNumber with
      | float _ => exact hleft.elim
      | int leftValue =>
        cases rightNumber with
        | float _ => exact hright.elim
        | int rightValue =>
          obtain rfl : leftWord.toInt = leftValue := hleft
          obtain rfl : rightWord.toInt = rightValue := hright
          by_cases hdivisor : op = .quotient ∧ rightWord.toInt = 0
          · exact .inl (if_pos hdivisor)
          · obtain ⟨word, hword, hvalue⟩ := op.toInt_of_onWords leftWord rightWord hdivisor
            refine .inr ⟨_, .int word, if_neg hdivisor, ?_, rfl, hvalue⟩
            rw [ArithOp.onValues, hword, Option.map_some]
  | float leftDouble =>
    cases right with
    | int _ => cases htype
    | float rightDouble =>
      cases leftNumber with
      | int _ => exact hleft.elim
      | float leftValue =>
        cases rightNumber with
        | int _ => exact hright.elim
        | float rightValue =>
          refine .inr ⟨_, _, rfl, rfl, rfl, fun hlaw ↦ ?_⟩
          rw [hleft hlaw, hright hlaw]

/-! ### Registers keep their values -/

/-- Whether every register that had a value has it still. -/
def Extends (before after : MachineState) : Prop :=
  ∀ name value, before.registers name = some value → after.registers name = some value

theorem Extends.refl (machine : MachineState) : Extends machine machine := fun _ _ h ↦ h

theorem Extends.trans {first second third : MachineState} (hfirst : Extends first second)
    (hsecond : Extends second third) : Extends first third :=
  fun name value h ↦ hsecond name value (hfirst name value h)

theorem extends_setRegister {machine : MachineState} {name : Lexeme} (value : MachineValue)
    (hfree : machine.isFree name = true) : Extends machine (machine.setRegister name value) := by
  intro other held hheld
  have hne : other ≠ name := by
    rintro rfl
    rw [(MachineState.isFree_iff.mp hfree).1] at hheld
    cases hheld
  rw [MachineState.registers_setRegister, if_neg hne, hheld]

theorem extends_setCell (machine : MachineState) (name : Lexeme) (cell : Cell) :
    Extends machine (machine.setCell name cell) := fun _ _ h ↦ h

/-- Whether an operand has a value that stands for a number. -/
def Holds (doubles : DoubleOps) (machine : MachineState) (operand : Operand) (number : Number) :
    Prop :=
  ∃ value, machine.valueOf operand = some value ∧ value.type = operand.type ∧
    Represents doubles number value

theorem Holds.mono {before after : MachineState} {operand : Operand} {number : Number}
    (hholds : Holds doubles before operand number) (hextends : Extends before after) :
    Holds doubles after operand number := by
  obtain ⟨value, hvalue, hrest⟩ := hholds
  refine ⟨value, ?_, hrest⟩
  cases operand with
  | int _ => exact hvalue
  | float _ => exact hvalue
  | register type name =>
    obtain ⟨hregister, htype⟩ := Option.filter_eq_some_iff.mp hvalue
    exact Option.filter_eq_some_iff.mpr ⟨hextends name value hregister, htype⟩

theorem holds_setRegister {machine : MachineState} {name : Lexeme} {value : MachineValue}
    {number : Number} (hvalue : Represents doubles number value) :
    Holds doubles (machine.setRegister name value) (.register value.type name) number := by
  refine ⟨value, ?_, rfl, hvalue⟩
  exact Option.filter_eq_some_iff.mpr ⟨by simp, by simp⟩

/-! ### Recording an instruction -/

/-- The state after an instruction was added that takes a fresh name. -/
def EmissionState.record (state : EmissionState) (base : Lexeme) (instr : Lexeme → Instr) :
    EmissionState :=
  { state with
    names := (state.names.fresh base).2
    code := instr (state.names.fresh base).1 :: state.code }

namespace Emission

variable (state : EmissionState)

theorem alloca_eq (base : Lexeme) (type : ValueType) :
    alloca base type state =
      .ok ⟨(state.names.fresh base).1, type⟩ (state.record base fun name => .alloca name type) := rfl

theorem store_eq (value : Operand) (slot : Slot) :
    store value slot state = .ok () (state.record (some "") fun _ => .store value slot.name) := rfl

theorem load_eq (base : String) (slot : Slot) :
    load base slot state = .ok (.register slot.type (state.names.fresh (some base)).1)
      (state.record (some base) fun name => .load name slot.type slot.name) := rfl

theorem compute_eq (base : String) (op : ArithOp) (type : ValueType) (left right : Operand) :
    compute base op type left right state = .ok (.register type (state.names.fresh (some base)).1)
      (state.record (some base) fun name => .arith name op type left right) := rfl

end Emission

/-- Whether the code so far leads to a state of the machine in which only taken names are in use. -/
structure Reaches (doubles : DoubleOps) (state : EmissionState) (machine : MachineState) : Prop where
  ran : MachineState.stepAll doubles state.code.reverse {} = some machine
  free : ∀ name, name ∉ state.names.taken → machine.isFree name = true

theorem Reaches.isFree_fresh {state : EmissionState} {machine : MachineState}
    (hreaches : Reaches doubles state machine) (base : Lexeme) :
    machine.isFree (state.names.fresh base).1 = true :=
  hreaches.free _ (Names.fresh_not_mem state.names base)

/-- One more instruction is carried out, if it uses no other name than the fresh one. -/
theorem Reaches.record {state : EmissionState} {machine after : MachineState} {base : Lexeme}
    {instr : Lexeme → Instr} (hreaches : Reaches doubles state machine)
    (hstep : MachineState.step doubles (instr (state.names.fresh base).1) machine = some after)
    (hfree : ∀ name, name ≠ (state.names.fresh base).1 → machine.isFree name = true →
      after.isFree name = true) :
    Reaches doubles (state.record base instr) after := by
  refine ⟨?_, fun name hname ↦ ?_⟩
  · change MachineState.stepAll doubles
      (instr (state.names.fresh base).1 :: state.code).reverse {} = some after
    rw [List.reverse_cons]
    exact MachineState.stepAll_concat hreaches.ran hstep
  · change name ∉ (state.names.fresh base).2.taken at hname
    rw [Names.taken_fresh, List.mem_cons, not_or] at hname
    exact hfree name hname.1 (hreaches.free name hname.2)

/-! ### Variables in their slots -/

theorem lookup_setSlot (name other : Lexeme) (slot : Slot) (slots : List (Lexeme × Slot)) :
    (setSlot name slot slots).lookup other =
      if other = name then some slot else slots.lookup other := by
  induction slots with
  | nil => exact lookup_cons_eq_ite name other slot []
  | cons first rest ih =>
    obtain ⟨firstName, old⟩ := first
    rw [setSlot]
    by_cases hfirst : firstName = name
    · subst hfirst
      rw [if_pos rfl, lookup_cons_eq_ite, lookup_cons_eq_ite]
      by_cases hother : other = firstName
      · rw [if_pos hother, if_pos hother]
      · rw [if_neg hother, if_neg hother, if_neg hother]
    · rw [if_neg hfirst, lookup_cons_eq_ite, lookup_cons_eq_ite, ih]
      by_cases hother : other = firstName
      · subst hother
        rw [if_pos rfl, if_neg hfirst, if_pos rfl]
      · rw [if_neg hother, if_neg hother]

/-- Whether the slot of each name holds the value of the variable that the name means, and the slots
of different names are different. -/
structure Stored (doubles : DoubleOps) (environment : Environment) (slots : List (Lexeme × Slot))
    (cells : Lexeme → Option Cell) : Prop where
  held : ∀ {name : Lexeme} {slot : Slot}, slots.lookup name = some slot →
    ∃ found value, environment.lookup? name = some found ∧
      cells slot.name = some ⟨slot.type, some value⟩ ∧ value.type = slot.type ∧
      Represents doubles found.value value
  apart : ∀ {name other : Lexeme} {slot otherSlot : Slot}, slots.lookup name = some slot →
    slots.lookup other = some otherSlot → slot.name = otherSlot.name → name = other

section

variable {environment : Environment} {slots : List (Lexeme × Slot)} {machine : MachineState}

theorem Stored.ne_of_isFree (hstored : Stored doubles environment slots machine.cells)
    {name slotName : Lexeme} {slot : Slot} (hslot : slots.lookup name = some slot)
    (hfree : machine.isFree slotName = true) : slot.name ≠ slotName := by
  rintro rfl
  obtain ⟨found, value, -, hcell, -⟩ := hstored.held hslot
  rw [(MachineState.isFree_iff.mp hfree).2] at hcell
  cases hcell

/-- A declaration puts its value into a slot of its own. -/
theorem Stored.declare (hstored : Stored doubles environment slots machine.cells)
    {name slotName : Lexeme} (type : Tree) {number : Number} {value : MachineValue}
    (hfree : machine.isFree slotName = true) (hvalue : Represents doubles number value) :
    Stored doubles (⟨name, type, number⟩ :: environment) (setSlot name ⟨slotName, value.type⟩ slots)
      (machine.setCell slotName ⟨value.type, some value⟩).cells := by
  constructor
  · intro other slot hslot
    rw [lookup_setSlot] at hslot
    rw [Environment.lookup?_cons, MachineState.cells_setCell]
    by_cases hother : other = name
    · rw [if_pos hother] at hslot
      cases hslot
      exact ⟨_, value, if_pos hother.symm, if_pos rfl, rfl, hvalue⟩
    · rw [if_neg hother] at hslot
      rw [if_neg (Ne.symm hother), if_neg (hstored.ne_of_isFree hslot hfree)]
      exact hstored.held hslot
  · intro first second firstSlot secondSlot hfirst hsecond hsame
    rw [lookup_setSlot] at hfirst hsecond
    by_cases hfirstName : first = name
    · by_cases hsecondName : second = name
      · rw [hfirstName, hsecondName]
      · rw [if_pos hfirstName] at hfirst
        rw [if_neg hsecondName] at hsecond
        cases hfirst
        exact absurd hsame.symm (hstored.ne_of_isFree hsecond hfree)
    · rw [if_neg hfirstName] at hfirst
      by_cases hsecondName : second = name
      · rw [if_pos hsecondName] at hsecond
        cases hsecond
        exact absurd hsame (hstored.ne_of_isFree hfirst hfree)
      · rw [if_neg hsecondName] at hsecond
        exact hstored.apart hfirst hsecond hsame

/-- An assignment changes the slot of its name, which no other name has. -/
theorem Stored.assign (hstored : Stored doubles environment slots machine.cells) {name : Lexeme}
    {slot : Slot} {number : Number} {value : MachineValue} (hslot : slots.lookup name = some slot)
    (htype : value.type = slot.type) (hvalue : Represents doubles number value) :
    Stored doubles (environment.assign name number) slots
      (machine.setCell slot.name ⟨slot.type, some value⟩).cells := by
  refine ⟨?_, hstored.apart⟩
  intro other otherSlot hother
  rw [Environment.lookup?_assign, MachineState.cells_setCell]
  by_cases hname : other = name
  · subst hname
    obtain rfl : slot = otherSlot := Option.some.inj (hslot.symm.trans hother)
    obtain ⟨found, -, hfound, -⟩ := hstored.held hslot
    rw [if_pos rfl, if_pos rfl, hfound]
    exact ⟨_, value, rfl, rfl, htype, hvalue⟩
  · have hne : otherSlot.name ≠ slot.name := fun hsame ↦ hname (hstored.apart hother hslot hsame)
    rw [if_neg hname, if_neg hne]
    exact hstored.held hother

end

/-! ### The code of expressions -/

/-- Whether the code between two states only gives values to fresh registers. -/
structure Adds (doubles : DoubleOps) (before after : EmissionState) (machine later : MachineState) :
    Prop where
  reaches : Reaches doubles after later
  registers : Extends machine later
  cells : later.cells = machine.cells
  slots : after.slots = before.slots
  result : after.result? = before.result?

section

variable {before middle after : EmissionState} {machine later latest : MachineState}

theorem Reaches.adds_self (hreaches : Reaches doubles before machine) :
    Adds doubles before before machine machine :=
  ⟨hreaches, .refl machine, rfl, rfl, rfl⟩

theorem Adds.trans (hfirst : Adds doubles before middle machine later)
    (hsecond : Adds doubles middle after later latest) :
    Adds doubles before after machine latest where
  reaches := hsecond.reaches
  registers := hfirst.registers.trans hsecond.registers
  cells := hsecond.cells.trans hfirst.cells
  slots := hsecond.slots.trans hfirst.slots
  result := hsecond.result.trans hfirst.result

theorem Adds.stored {environment : Environment} (hadds : Adds doubles before after machine later)
    (hstored : Stored doubles environment before.slots machine.cells) :
    Stored doubles environment after.slots later.cells := by
  rw [hadds.slots, hadds.cells]
  exact hstored

/-- An instruction that gives a value to a fresh register. -/
theorem Reaches.adds_record {base : Lexeme} {instr : Lexeme → Instr} {value : MachineValue}
    (hreaches : Reaches doubles before machine)
    (hstep : MachineState.step doubles (instr (before.names.fresh base).1) machine =
      some (machine.setRegister (before.names.fresh base).1 value)) :
    Adds doubles before (before.record base instr) machine
      (machine.setRegister (before.names.fresh base).1 value) where
  reaches := hreaches.record hstep fun name hne hfree ↦ by
    rwa [MachineState.isFree_setRegister _ _ _ hne]
  registers := extends_setRegister value (hreaches.isFree_fresh base)
  cells := rfl
  slots := rfl
  result := rfl

/-- A load puts the value of a variable into a register. -/
theorem Reaches.adds_load {environment : Environment} {name base : Lexeme} {slot : Slot}
    (hreaches : Reaches doubles before machine)
    (hstored : Stored doubles environment before.slots machine.cells)
    (hslot : before.slots.lookup name = some slot) :
    ∃ found later, environment.lookup? name = some found ∧
      Adds doubles before (before.record base fun register => .load register slot.type slot.name)
        machine later ∧
      Holds doubles later (.register slot.type (before.names.fresh base).1) found.value := by
  obtain ⟨found, value, hfound, hcell, htype, hvalue⟩ := hstored.held hslot
  have hfree := hreaches.isFree_fresh base
  refine ⟨found, machine.setRegister (before.names.fresh base).1 value, hfound,
    hreaches.adds_record ?_, ?_⟩
  · simp [MachineState.step, hcell, hfree]
  · rw [← htype]
    exact holds_setRegister hvalue

/-- An operation puts its result into a register, unless it divides by zero. -/
theorem Reaches.adds_compute {base : Lexeme} (op : ArithOp) {left right : Operand}
    {leftNumber rightNumber : Number} (hreaches : Reaches doubles before machine)
    (hleft : Holds doubles machine left leftNumber)
    (hright : Holds doubles machine right rightNumber) (htype : left.type = right.type) :
    op.meaning doubles leftNumber rightNumber = .error .divisionByZero ∨
      ∃ number later, op.meaning doubles leftNumber rightNumber = .ok number ∧
        Adds doubles before (before.record base fun name => .arith name op left.type left right)
          machine later ∧
        Holds doubles later (.register left.type (before.names.fresh base).1) number := by
  obtain ⟨leftValue, hleftValue, hleftType, hleft⟩ := hleft
  obtain ⟨rightValue, hrightValue, hrightType, hright⟩ := hright
  have hsame : leftValue.type = rightValue.type := by rw [hleftType, hrightType, htype]
  obtain hzero | ⟨number, result, hnumber, hresult, hresultType, hrepresents⟩ :=
    op.represents_onValues hleft hright hsame
  · exact .inl hzero
  · have hfree := hreaches.isFree_fresh base
    refine .inr ⟨number, machine.setRegister (before.names.fresh base).1 result, hnumber,
      hreaches.adds_record ?_, ?_⟩
    · simp [MachineState.step, hleftValue, hrightValue, hresult, hleftType, hfree]
    · rw [← hleftType, ← hresultType]
      exact holds_setRegister hrepresents

/-- Subtracting from a zero changes the sign. -/
theorem Reaches.adds_negate {operand negated : Operand} {number : Number}
    (hreaches : Reaches doubles before machine) (hholds : Holds doubles machine operand number)
    (hnegate : Emission.negate operand before = .ok negated after) :
    ∃ later, Adds doubles before after machine later ∧
      Holds doubles later negated (number.opposite doubles) := by
  have hoperand := hholds
  obtain ⟨value, hvalue, htype, hrepresents⟩ := hoperand
  unfold Emission.negate at hnegate
  cases number with
  | int integer =>
    cases value with
    | float _ => exact hrepresents.elim
    | int word =>
      rw [← htype] at hnegate
      change Emission.compute "neg" .difference .int (.int 0) operand before = _ at hnegate
      rw [Emission.compute_eq] at hnegate
      cases hnegate
      have hzero : Holds doubles machine (.int 0) (.int 0) := ⟨.int 0, rfl, rfl, rfl⟩
      obtain hfault | ⟨result, later, hresult, hadds, hresultHolds⟩ :=
        hreaches.adds_compute .difference hzero hholds htype
      · cases hfault
      · cases hresult
        refine ⟨later, hadds, ?_⟩
        rw [Number.opposite, ← Int.zero_sub]
        exact hresultHolds
  | float double =>
    cases value with
    | int _ => exact hrepresents.elim
    | float held =>
      rw [← htype] at hnegate
      change Emission.compute "fneg" .difference .float (.float ⟨Binary64.signBit⟩) operand before = _
        at hnegate
      rw [Emission.compute_eq] at hnegate
      cases hnegate
      have hzero : Holds doubles machine (.float ⟨Binary64.signBit⟩) (.float ⟨Binary64.signBit⟩) :=
        ⟨.float ⟨Binary64.signBit⟩, rfl, rfl, fun _ ↦ rfl⟩
      obtain hfault | ⟨result, later, hresult, hadds, final, hfinal, hfinalType, hfinalRepresents⟩ :=
        hreaches.adds_compute .difference hzero hholds htype
      · cases hfault
      · cases hresult
        refine ⟨later, hadds, final, hfinal, hfinalType, ?_⟩
        cases final with
        | int _ => exact hfinalRepresents.elim
        | float difference =>
          intro hlaw
          rw [hfinalRepresents hlaw, hlaw double]

end

end LetLang
