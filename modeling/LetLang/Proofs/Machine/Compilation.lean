import LetLang.Proofs.Grammar.Derivation
import LetLang.Proofs.Machine.Simulation

/-!
# Compiled programs return what they mean

A program that compiles, and that does not divide an integer by zero, is carried out to its end, and
its code returns the last integer that one of its statements computed (`run_emit`). Where it returns,
the slot of every name holds the last value that was stored under the name (`cells_emit`).

Compilation is taken apart into the code of the parts of a tree; the code of an expression computes
its value (`Computes`), and the code of a statement takes the machine to where the statement leads
(`Carries`). The operand kept for the result is a constant or a register, so it still has the value
that its statement had, whatever is stored later.
-/

set_option autoImplicit false

namespace LetLang

variable {doubles : DoubleOps}

/-! ### Programs to compile -/

/-- Whether a node is a statement: a declaration, an assignment or an expression that stands as one. -/
def Tree.isStatement : Tree → Bool
  | declaration .. => true
  | assignment .. => true
  | statement _ => true
  | _ => false

/-- Whether a node is a program that consists of statements. -/
def Tree.isProgram : Tree → Bool
  | program statements => statements.all isStatement
  | _ => false

theorem IsStatement.isStatement {tree : Tree} {tokens : List Token} (h : IsStatement tree tokens) :
    tree.isStatement = true := by
  cases h with
  | ended hended => cases hended <;> rfl
  | braced _ _ => rfl

/-- Parsed programs are such. -/
theorem IsProgram.isProgram {tree : Tree} {tokens : List Token} (h : IsProgram tree tokens) :
    tree.isProgram = true := by
  cases h with
  | program hstatements =>
    rw [Tree.isProgram]
    induction hstatements using AreStatements.induct with
    | nil => rfl
    | cons hstatement _ ih => rw [List.all_cons, hstatement.isStatement, ih, Bool.and_self]

/-- Whether every integer in an expression or a statement with arithmetic is a signed 64-bit one. -/
def Tree.integersFit : Tree → Bool
  | integer value => fitsInt64 value
  | declaration _ _ _ value => value.integersFit
  | assignment _ value => value.integersFit
  | statement expression => expression.integersFit
  | parenthesized expression => expression.integersFit
  | negation factor => factor.integersFit
  | arith _ left right => left.integersFit && right.integersFit
  | _ => true

/-- Whether every integer in the statements of a program is a signed 64-bit one. -/
def Tree.programIntegersFit : Tree → Bool
  | program statements => statements.all integersFit
  | _ => true

/-! ### Inverting compilation -/

namespace Emission

variable {before after : EmissionState}

theorem eq_of_needed_eq_ok {value? : Option Operand} {operand : Operand}
    (hneeded : needed value? before = .ok operand after) : value? = some operand ∧ before = after := by
  cases value? with
  | none => cases hneeded
  | some value =>
    cases hneeded
    exact ⟨rfl, rfl⟩

theorem exists_of_needed_bind {α : Type} {levels : Nat} {tree : Tree} {next : Operand → Emission α}
    {result : α}
    (hrun : (do next (← needed (← visit levels tree)) : Emission α) before = .ok result after) :
    ∃ operand middle, visit levels tree before = .ok (some operand) middle ∧
      next operand middle = .ok result after := by
  obtain ⟨value?, middle, hvisit, hrun⟩ := Run.exists_of_bind_eq_ok hrun
  obtain ⟨operand, _, hneeded, hrun⟩ := Run.exists_of_bind_eq_ok hrun
  obtain ⟨rfl, rfl⟩ := eq_of_needed_eq_ok hneeded
  exact ⟨operand, middle, hvisit, hrun⟩

theorem eq_of_slotOf_eq_ok {name : Lexeme} {node : Tree} {slot : Slot}
    (hslot : slotOf name node before = .ok slot after) :
    before.slots.lookup name = some slot ∧ before = after := by
  unfold slotOf at hslot
  rw [Run.get_bind] at hslot
  cases hlookup : before.slots.lookup name with
  | none =>
    rw [hlookup] at hslot
    cases hslot
  | some found =>
    rw [hlookup] at hslot
    cases hslot
    exact ⟨rfl, rfl⟩

theorem eq_of_storageType_eq_ok {declared node : Tree} {found type : ValueType}
    (htype : storageType declared found node before = .ok type after) :
    type = found ∧ before = after := by
  unfold storageType at htype
  split at htype
  · cases htype
    exact ⟨rfl, rfl⟩
  · split at htype
    · cases htype
      exact ⟨rfl, rfl⟩
    · cases htype
  · split at htype
    · cases htype
      exact ⟨rfl, rfl⟩
    · cases htype
  · cases htype

/-- What the compilation of a declaration comes to: the code of the value, a slot and a store. -/
theorem exists_of_visit_declaration {levels : Nat} {keyword : DeclKeyword} {name : Lexeme}
    {type value : Tree} {value? : Option Operand}
    (hvisit : visit (levels + 1) (.declaration keyword name type value) before = .ok value? after) :
    ∃ operand middle made, visit levels value before = .ok (some operand) middle ∧
      made = middle.record name (fun slot => .alloca slot operand.type) ∧ value? = none ∧
      after = { made.record (some "") fun _ => .store operand (middle.names.fresh name).1 with
        slots := setSlot name ⟨(middle.names.fresh name).1, operand.type⟩ middle.slots } := by
  obtain ⟨operand, middle, hoperand, hrun⟩ := exists_of_needed_bind hvisit
  obtain ⟨slotType, _, hslotType, hrun⟩ := Run.exists_of_bind_eq_ok hrun
  obtain ⟨rfl, rfl⟩ := eq_of_storageType_eq_ok hslotType
  rw [Run.bind_of_ok (alloca_eq middle name operand.type), Run.bind_of_ok (store_eq _ operand _)] at hrun
  cases hrun
  exact ⟨operand, middle, _, hoperand, rfl, rfl, rfl⟩

/-- What the compilation of an assignment comes to: the code of the value and a store. -/
theorem exists_of_visit_assignment {levels : Nat} {name : Lexeme} {value : Tree}
    {value? : Option Operand}
    (hvisit : visit (levels + 1) (.assignment name value) before = .ok value? after) :
    ∃ slot operand middle, before.slots.lookup name = some slot ∧
      visit levels value before = .ok (some operand) middle ∧ operand.type = slot.type ∧
      value? = none ∧ after = middle.record (some "") fun _ => .store operand slot.name := by
  obtain ⟨slot, _, hslot, hrun⟩ := Run.exists_of_bind_eq_ok hvisit
  obtain ⟨hlookup, rfl⟩ := eq_of_slotOf_eq_ok hslot
  obtain ⟨operand, middle, hoperand, hrun⟩ := exists_of_needed_bind hrun
  by_cases htype : operand.type = slot.type
  · simp only [if_pos htype] at hrun
    rw [Run.bind_of_ok (store_eq middle operand slot)] at hrun
    cases hrun
    exact ⟨slot, operand, middle, hlookup, hoperand, htype, rfl, rfl⟩
  · simp only [if_neg htype] at hrun
    cases hrun

/-- What the compilation of an expression that is a statement comes to. -/
theorem exists_of_visit_statement {levels : Nat} {expression : Tree} {value? : Option Operand}
    (hvisit : visit (levels + 1) (.statement expression) before = .ok value? after) :
    ∃ operand middle, visit levels expression before = .ok (some operand) middle ∧ value? = none ∧
      after = if operand.type = .int then { middle with result? := some operand } else middle := by
  obtain ⟨operand, middle, hoperand, hrun⟩ := exists_of_needed_bind hvisit
  refine ⟨operand, middle, hoperand, ?_⟩
  by_cases htype : operand.type = .int
  · simp only [if_pos htype] at hrun ⊢
    cases hrun
    exact ⟨rfl, rfl⟩
  · simp only [if_neg htype] at hrun ⊢
    cases hrun
    exact ⟨rfl, rfl⟩

/-- What the compilation of an operation comes to: the code of the operands and one instruction. -/
theorem exists_of_visit_arith {levels : Nat} {op : ArithOp} {left right : Tree}
    {value? : Option Operand}
    (hvisit : visit (levels + 1) (.arith op left right) before = .ok value? after) :
    ∃ leftOperand rightOperand middle last,
      visit levels left before = .ok (some leftOperand) middle ∧
      visit levels right middle = .ok (some rightOperand) last ∧
      leftOperand.type = rightOperand.type ∧
      value? = some (.register leftOperand.type (last.names.fresh (some (resultName op))).1) ∧
      after = last.record (some (resultName op)) fun name =>
        .arith name op leftOperand.type leftOperand rightOperand := by
  obtain ⟨left?, middle, hleft, hrun⟩ := Run.exists_of_bind_eq_ok hvisit
  obtain ⟨right?, last, hright, hrun⟩ := Run.exists_of_bind_eq_ok hrun
  obtain ⟨leftOperand, _, hneeded, hrun⟩ := Run.exists_of_bind_eq_ok hrun
  obtain ⟨rfl, rfl⟩ := eq_of_needed_eq_ok hneeded
  obtain ⟨rightOperand, _, hneeded, hrun⟩ := Run.exists_of_bind_eq_ok hrun
  obtain ⟨rfl, rfl⟩ := eq_of_needed_eq_ok hneeded
  refine ⟨leftOperand, rightOperand, middle, last, hleft, hright, ?_⟩
  by_cases htype : leftOperand.type = rightOperand.type
  · rw [if_pos htype, Run.bind_of_ok (compute_eq last _ op _ leftOperand rightOperand)] at hrun
    cases hrun
    exact ⟨htype, rfl, rfl⟩
  · rw [if_neg htype] at hrun
    cases hrun

end Emission

/-! ### Expressions -/

/-- Whether the code of an expression computes the value of the expression, or the expression divides
by zero. -/
def Computes (doubles : DoubleOps) (environment : Environment) (expected? : Option Tree)
    (tree : Tree) (before : EmissionState) (machine : MachineState) (operand : Operand)
    (after : EmissionState) : Prop :=
  evaluate doubles environment expected? tree = .error .divisionByZero ∨
    ∃ number later, evaluate doubles environment expected? tree = .ok number ∧
      Adds doubles before after machine later ∧ Holds doubles later operand number

section

variable {environment : Environment} (expected? : Option Tree)

/-- The code of an operation computes its value if the codes of its operands, one after the other, do
so. -/
theorem computes_arith {op : ArithOp} {left right : Tree} {base : Lexeme}
    {before middle last : EmissionState} {machine : MachineState} {leftOperand rightOperand : Operand}
    (hleft : Computes doubles environment expected? left before machine leftOperand middle)
    (hright : ∀ later, Adds doubles before middle machine later →
      Computes doubles environment expected? right middle later rightOperand last)
    (htype : leftOperand.type = rightOperand.type) :
    Computes doubles environment expected? (.arith op left right) before machine
      (.register leftOperand.type (last.names.fresh base).1)
      (last.record base fun name => .arith name op leftOperand.type leftOperand rightOperand) := by
  unfold Computes
  rw [evaluate]
  obtain hzero | ⟨leftNumber, later, hleftNumber, hadds, hleftHolds⟩ := hleft
  · rw [hzero]
    exact .inl rfl
  rw [hleftNumber]
  obtain hzero | ⟨rightNumber, latest, hrightNumber, haddsRight, hrightHolds⟩ := hright later hadds
  · rw [hzero]
    exact .inl rfl
  rw [hrightNumber]
  -- The register of the left operand is still what it was after the code of the right one.
  have hleftStill := hleftHolds.mono haddsRight.registers
  obtain hzero | ⟨number, final, hnumber, haddsFinal, hholds⟩ :=
    haddsRight.reaches.adds_compute op hleftStill hrightHolds htype
  · exact .inl hzero
  · exact .inr ⟨number, final, hnumber, (hadds.trans haddsRight).trans haddsFinal, hholds⟩

/-- The code of an expression computes its value. -/
theorem computes_visit (levels : Nat) :
    ∀ {tree : Tree} {before after : EmissionState} {machine : MachineState} {operand : Operand},
      Emission.visit levels tree before = .ok (some operand) after →
      tree.integersFit = true → Reaches doubles before machine →
      Stored doubles environment before.slots machine.cells →
      Computes doubles environment expected? tree before machine operand after := by
  induction levels with
  | zero =>
    intro tree before after machine operand hvisit
    cases hvisit
  | succ levels ih =>
    intro tree before after machine operand hvisit hfit hreaches hstored
    cases tree with
    | integer value =>
      cases hvisit
      exact .inr ⟨_, machine, rfl, hreaches.adds_self, _, rfl, rfl, represents_ofInt hfit⟩
    | float value =>
      cases hvisit
      exact .inr ⟨_, machine, rfl, hreaches.adds_self, _, rfl, rfl, fun _ ↦ rfl⟩
    | identifier name =>
      obtain ⟨slot, _, hslot, hload⟩ := Run.exists_of_bind_eq_ok hvisit
      obtain ⟨hlookup, rfl⟩ := Emission.eq_of_slotOf_eq_ok hslot
      rw [Run.bind_of_ok (Emission.load_eq before _ slot)] at hload
      cases hload
      obtain ⟨found, later, hfound, hadds, hholds⟩ := hreaches.adds_load hstored hlookup
      refine .inr ⟨found.value, later, ?_, hadds, hholds⟩
      rw [evaluate, hfound]
    | parenthesized expression =>
      have hinner : Emission.visit levels expression before = .ok (some operand) after := hvisit
      have hcomputes := ih hinner hfit hreaches hstored
      exact hcomputes
    | negation factor =>
      obtain ⟨inner, middle, hinner, hnegate⟩ := Emission.exists_of_needed_bind hvisit
      obtain ⟨negated, _, hnegated, hpure⟩ := Run.exists_of_bind_eq_ok hnegate
      cases hpure
      unfold Computes
      rw [evaluate]
      obtain hzero | ⟨number, later, hnumber, hadds, hholds⟩ := ih hinner hfit hreaches hstored
      · rw [hzero]
        exact .inl rfl
      · obtain ⟨final, haddsFinal, hnegatedHolds⟩ := hadds.reaches.adds_negate hholds hnegated
        rw [hnumber]
        exact .inr ⟨_, final, rfl, hadds.trans haddsFinal, hnegatedHolds⟩
    | arith op left right =>
      obtain ⟨leftOperand, rightOperand, middle, last, hleft, hright, htype, hoperand, rfl⟩ :=
        Emission.exists_of_visit_arith hvisit
      cases hoperand
      obtain ⟨hleftFit, hrightFit⟩ := Bool.and_eq_true_iff.mp hfit
      refine computes_arith expected? (ih hleft hleftFit hreaches hstored) (fun later hadds ↦ ?_) htype
      exact ih hright hrightFit hadds.reaches (hadds.stored hstored)
    | declaration keyword name type value =>
      obtain ⟨_, _, _, _, _, hnone, _⟩ := Emission.exists_of_visit_declaration hvisit
      cases hnone
    | assignment name value =>
      obtain ⟨_, _, _, _, _, _, hnone, _⟩ := Emission.exists_of_visit_assignment hvisit
      cases hnone
    | statement expression =>
      obtain ⟨_, _, _, hnone, _⟩ := Emission.exists_of_visit_statement hvisit
      cases hnone
    | program statements =>
      obtain ⟨_, _, _, hpure⟩ := Run.exists_of_bind_eq_ok hvisit
      cases hpure
    | _ => cases hvisit

end

/-! ### Statements -/

/-- A store into a slot that there is. -/
theorem Reaches.store {state : EmissionState} {machine : MachineState} {operand : Operand}
    {slotName : Lexeme} {cell : Cell} {value : MachineValue} (hreaches : Reaches doubles state machine)
    (hvalue : machine.valueOf operand = some value) (hcell : machine.cells slotName = some cell)
    (htype : cell.type = value.type) :
    Reaches doubles (state.record (some "") fun _ => .store operand slotName)
      (machine.setCell slotName ⟨value.type, some value⟩) := by
  refine hreaches.record ?_ fun name _ hfree ↦ ?_
  · simp [MachineState.step, hvalue, hcell, htype]
  · have hne : name ≠ slotName := by
      rintro rfl
      rw [(MachineState.isFree_iff.mp hfree).2] at hcell
      cases hcell
    rwa [MachineState.isFree_setCell _ _ _ hne]

/-- A fresh slot with a value in it. -/
theorem Reaches.alloca_store {state : EmissionState} {machine : MachineState} (base : Lexeme)
    {operand : Operand} {value : MachineValue} (hreaches : Reaches doubles state machine)
    (hvalue : machine.valueOf operand = some value) (htype : value.type = operand.type) :
    Reaches doubles
      ((state.record base fun slot => .alloca slot operand.type).record (some "") fun _ =>
        .store operand (state.names.fresh base).1)
      (machine.setCell (state.names.fresh base).1 ⟨value.type, some value⟩) := by
  have hfree := hreaches.isFree_fresh base
  have hmade : Reaches doubles (state.record base fun slot => .alloca slot operand.type)
      (machine.setCell (state.names.fresh base).1 ⟨operand.type, none⟩) := by
    refine hreaches.record ?_ fun name hne hname ↦ ?_
    · simp [MachineState.step, hfree]
    · rwa [MachineState.isFree_setCell _ _ _ hne]
  have hcell : (machine.setCell (state.names.fresh base).1 ⟨operand.type, none⟩).cells
      (state.names.fresh base).1 = some ⟨operand.type, none⟩ := by simp
  rw [← MachineState.setCell_setCell machine _ ⟨operand.type, none⟩]
  exact hmade.store hvalue hcell htype.symm

/-- Whether the machine is where the statements carried out so far have led to. -/
structure Tracks (doubles : DoubleOps) (environment : Environment) (effects : List Effect)
    (state : EmissionState) (machine : MachineState) : Prop where
  reaches : Reaches doubles state machine
  stored : Stored doubles environment state.slots machine.cells
  result : Holds doubles machine (state.result?.getD (.int 0)) (.int (answer effects))

theorem tracks_initial : Tracks doubles [] [] .initial {} where
  reaches := ⟨rfl, fun _ _ ↦ rfl⟩
  stored := by
    constructor
    · intro name slot hslot
      cases hslot
    · intro name other slot otherSlot hslot
      cases hslot
  result := ⟨.int 0, rfl, rfl, rfl⟩

/-- A store leaves the value to return as it is. -/
theorem Tracks.result_store {environment : Environment} {effects : List Effect}
    {before middle : EmissionState} {machine later : MachineState}
    (htracks : Tracks doubles environment effects before machine)
    (hadds : Adds doubles before middle machine later) (slotName : Lexeme) (cell : Cell)
    (name : Lexeme) (number : Number) :
    Holds doubles (later.setCell slotName cell) (middle.result?.getD (.int 0))
      (.int (answer (effects ++ [.stored name number]))) := by
  have hanswer : answer (effects ++ [.stored name number]) = answer effects := answer_concat _ _
  rw [hanswer, hadds.result]
  exact (htracks.result.mono hadds.registers).mono (extends_setCell later slotName cell)

/-- Whether the code of a statement takes the machine to where the statement leads, or the statement
divides by zero. -/
def Carries (doubles : DoubleOps) (environment : Environment) (effects : List Effect)
    (statement : Tree) (after : EmissionState) : Prop :=
  execute doubles environment statement = .error .divisionByZero ∨
    ∃ later effect machine, execute doubles environment statement = .ok (later, effect) ∧
      Tracks doubles later (effects ++ [effect]) after machine

section

variable {environment : Environment} {effects : List Effect} {levels : Nat}
variable {before after : EmissionState} {machine : MachineState} {value? : Option Operand}

theorem carries_declaration {keyword : DeclKeyword} {name : Lexeme} {type value : Tree}
    (htracks : Tracks doubles environment effects before machine)
    (hfit : (Tree.declaration keyword name type value).integersFit = true)
    (hvisit : Emission.visit (levels + 1) (.declaration keyword name type value) before =
      .ok value? after) :
    Carries doubles environment effects (.declaration keyword name type value) after := by
  obtain ⟨operand, middle, _, hoperand, rfl, _, rfl⟩ := Emission.exists_of_visit_declaration hvisit
  unfold Carries
  rw [execute]
  obtain hzero | ⟨number, later, hnumber, hadds, held, hheld, htype, hrepresents⟩ :=
    computes_visit (some type) levels hoperand hfit htracks.reaches htracks.stored
  · rw [hzero]
    exact .inl rfl
  · rw [hnumber]
    have hreaches := hadds.reaches.alloca_store name hheld htype
    refine .inr ⟨_, _, _, rfl, ⟨hreaches.ran, hreaches.free⟩, ?_, ?_⟩
    · rw [← htype]
      exact (hadds.stored htracks.stored).declare type (hadds.reaches.isFree_fresh name) hrepresents
    · exact htracks.result_store hadds _ _ name number

theorem carries_assignment {name : Lexeme} {value : Tree}
    (htracks : Tracks doubles environment effects before machine)
    (hfit : (Tree.assignment name value).integersFit = true)
    (hvisit : Emission.visit (levels + 1) (.assignment name value) before = .ok value? after) :
    Carries doubles environment effects (.assignment name value) after := by
  obtain ⟨slot, operand, middle, hslot, hoperand, hslotType, _, rfl⟩ :=
    Emission.exists_of_visit_assignment hvisit
  obtain ⟨found, old, hfound, hcell, -⟩ := htracks.stored.held hslot
  unfold Carries
  rw [execute, hfound]
  obtain hzero | ⟨number, later, hnumber, hadds, held, hheld, htype, hrepresents⟩ :=
    computes_visit (some found.type) levels hoperand hfit htracks.reaches htracks.stored
  · rw [Option.map_some, hzero]
    exact .inl rfl
  · rw [Option.map_some, hnumber]
    have hheldType : held.type = slot.type := htype.trans hslotType
    have hlaterCell : later.cells slot.name = some ⟨slot.type, some old⟩ := by
      rw [hadds.cells, hcell]
    refine .inr ⟨_, _, _, rfl, hadds.reaches.store hheld hlaterCell hheldType.symm, ?_, ?_⟩
    · rw [hheldType]
      have hslotStill : middle.slots.lookup name = some slot := by rw [hadds.slots, hslot]
      exact (hadds.stored htracks.stored).assign hslotStill hheldType hrepresents
    · exact htracks.result_store hadds _ _ name number

theorem carries_statement {expression : Tree}
    (htracks : Tracks doubles environment effects before machine)
    (hfit : (Tree.statement expression).integersFit = true)
    (hvisit : Emission.visit (levels + 1) (.statement expression) before = .ok value? after) :
    Carries doubles environment effects (.statement expression) after := by
  obtain ⟨operand, middle, hoperand, _, rfl⟩ := Emission.exists_of_visit_statement hvisit
  unfold Carries
  rw [execute]
  obtain hzero | ⟨number, later, hnumber, hadds, hholds⟩ :=
    computes_visit none levels hoperand hfit htracks.reaches htracks.stored
  · rw [hzero]
    exact .inl rfl
  rw [hnumber]
  have hstored := hadds.stored htracks.stored
  refine .inr ⟨_, _, later, rfl, ?_⟩
  have hvalue := hholds
  obtain ⟨held, hheld, htype, hrepresents⟩ := hvalue
  cases held with
  | int word =>
    cases number with
    | float _ => exact hrepresents.elim
    | int integer =>
      have hint : operand.type = .int := htype.symm
      rw [if_pos hint]
      refine ⟨⟨hadds.reaches.ran, hadds.reaches.free⟩, hstored, ?_⟩
      rw [answer_concat]
      exact hholds
  | float double =>
    cases number with
    | int _ => exact hrepresents.elim
    | float _ =>
      have hfloat : operand.type ≠ .int := by
        intro hint
        cases htype.trans hint
      rw [if_neg hfloat]
      refine ⟨hadds.reaches, hstored, ?_⟩
      rw [answer_concat, hadds.result]
      exact htracks.result.mono hadds.registers

theorem carries_visit {statement : Tree} (hstatement : statement.isStatement = true)
    (hfit : statement.integersFit = true)
    (htracks : Tracks doubles environment effects before machine)
    (hvisit : Emission.visit levels statement before = .ok value? after) :
    Carries doubles environment effects statement after := by
  cases levels with
  | zero => cases hvisit
  | succ levels =>
    cases statement with
    | declaration keyword name type value => exact carries_declaration htracks hfit hvisit
    | assignment name value => exact carries_assignment htracks hfit hvisit
    | statement expression => exact carries_statement htracks hfit hvisit
    | _ => cases hstatement

end

/-! ### Programs -/

/-- The code of statements takes the machine to where the statements lead, unless one of them divides
by zero. -/
theorem tracks_forM {levels : Nat} :
    ∀ {statements : List Tree} {environment : Environment} {effects : List Effect}
      {before after : EmissionState} {machine : MachineState},
      statements.all Tree.isStatement = true → statements.all Tree.integersFit = true →
      Tracks doubles environment effects before machine → Recalls environment effects →
      (statements.forM fun statement => do let _ ← Emission.visit levels statement) before =
        .ok () after →
      (runStatements doubles environment statements).fault? = some .divisionByZero ∨
        (runStatements doubles environment statements).fault? = none ∧
          ∃ later final,
            Tracks doubles later
              (effects ++ (runStatements doubles environment statements).effects) after final ∧
            Recalls later (effects ++ (runStatements doubles environment statements).effects) := by
  intro statements
  induction statements with
  | nil =>
    intro environment effects before after machine _ _ htracks hrecalls hrun
    cases hrun
    refine .inr ⟨rfl, environment, machine, ?_⟩
    rw [runStatements, List.append_nil]
    exact ⟨htracks, hrecalls⟩
  | cons statement rest ih =>
    intro environment effects before after machine hshape hfit htracks hrecalls hrun
    rw [List.all_cons, Bool.and_eq_true] at hshape hfit
    obtain ⟨_, middle, hfirst, hrun⟩ := Run.exists_of_bind_eq_ok hrun
    obtain ⟨value?, _, hvisit, hpure⟩ := Run.exists_of_bind_eq_ok hfirst
    cases hpure
    rw [runStatements]
    obtain hzero | ⟨later, effect, reached, hexecute, hlater⟩ :=
      carries_visit hshape.1 hfit.1 htracks hvisit
    · rw [hzero]
      exact .inl rfl
    · have hrecallsLater := hrecalls.execute doubles hexecute
      rw [hexecute]
      obtain hzero | ⟨hnone, last, final, hlast⟩ :=
        ih hshape.2 hfit.2 hlater hrecallsLater hrun
      · exact .inl hzero
      · refine .inr ⟨hnone, last, final, ?_⟩
        rwa [List.append_assoc] at hlast

/-- The code of a program that does not divide an integer by zero takes the machine to where the
program leads, and then returns. -/
theorem tracks_emit {program : Tree} {code : List Instr} (hprogram : program.isProgram = true)
    (hfit : program.programIntegersFit = true) (hcode : (emit program).result = .ok code)
    (hdivision : (interpret doubles program).fault? ≠ some .divisionByZero) :
    (interpret doubles program).fault? = none ∧
      code = (emit program).state.code.reverse ++
        [.ret ((emit program).state.result?.getD (.int 0))] ∧
      ∃ environment final,
        Tracks doubles environment (interpret doubles program).effects (emit program).state final ∧
        Recalls environment (interpret doubles program).effects := by
  cases program with
  | program statements =>
    unfold emit at hcode ⊢
    cases hvisit : Emission.visit Emission.depthLimit (.program statements) .initial with
    | error failure state =>
      rw [hvisit] at hcode
      cases hcode
    | ok value? state =>
      rw [hvisit] at hcode
      cases hcode
      obtain ⟨_, _, hrun, hpure⟩ := Run.exists_of_bind_eq_ok hvisit
      cases hpure
      obtain hzero | ⟨hnone, htracks⟩ := tracks_forM hprogram hfit tracks_initial recalls_nil hrun
      · exact absurd hzero hdivision
      · exact ⟨hnone, rfl, htracks⟩
  | _ => cases hprogram

/-- The code of a program that does not divide an integer by zero runs to its end and returns the
last integer that a statement of the program computed, or zero if there is none. -/
theorem run_emit {program : Tree} {code : List Instr} (hprogram : program.isProgram = true)
    (hfit : program.programIntegersFit = true) (hcode : (emit program).result = .ok code)
    (hdivision : (interpret doubles program).fault? ≠ some .divisionByZero) :
    (interpret doubles program).fault? = none ∧
      ∃ word, MachineState.run doubles code {} = some (.int word) ∧
        word.toInt = answer (interpret doubles program).effects := by
  obtain ⟨hnone, rfl, environment, final, htracks, -⟩ := tracks_emit hprogram hfit hcode hdivision
  refine ⟨hnone, ?_⟩
  obtain ⟨value, hvalue, htype, hrepresents⟩ := htracks.result
  rw [MachineState.run_append htracks.reaches.ran]
  cases value with
  | int word => exact ⟨word, hvalue, hrepresents⟩
  | float double => exact hrepresents.elim

/-- The program `let sum: int = 5; mut sum: int = sum + sum; -sum; sum = 7;`. -/
def redeclaringProgram : Tree :=
  .program
    [.declaration .let_ (some "sum") (.basicType .int) (.integer 5),
     .declaration .mut_ (some "sum") (.basicType .int)
      (.arith .sum (.identifier (some "sum")) (.identifier (some "sum"))),
     .statement (.negation (.identifier (some "sum"))),
     .assignment (some "sum") (.integer 7)]

/-- The code of that program. -/
def redeclaringCode : List Instr :=
  [.alloca (some "sum") .int,
   .store (.int 5) (some "sum"),
   .load (some "sum.load") .int (some "sum"),
   .load (some "sum.load.1") .int (some "sum"),
   .arith (some "sum.1") .sum .int (.register .int (some "sum.load"))
    (.register .int (some "sum.load.1")),
   .alloca (some "sum.2") .int,
   .store (.register .int (some "sum.1")) (some "sum.2"),
   .load (some "sum.load.2") .int (some "sum.2"),
   .arith (some "neg") .difference .int (.int 0) (.register .int (some "sum.load.2")),
   .store (.int 7) (some "sum.2"),
   .ret (.register .int (some "neg"))]

/-- The second declaration hides the first after its value was computed from it, its register is told
apart from the slots of the same name, and the assignment at the end comes too late to matter. -/
theorem run_emit_redeclaring :
    (emit redeclaringProgram).result = .ok redeclaringCode ∧
      ∃ word, MachineState.run .binary64 redeclaringCode {} = some (.int word) ∧
        word.toInt = -10 := by
  have hsome : (emit redeclaringProgram).result.toOption = some redeclaringCode := by decide +kernel
  have hcode : (emit redeclaringProgram).result = .ok redeclaringCode := by
    cases hresult : (emit redeclaringProgram).result with
    | error failure =>
      rw [hresult] at hsome
      cases hsome
    | ok code =>
      rw [hresult] at hsome
      exact congrArg Except.ok (Option.some.inj hsome)
  have hmeaning : interpret .binary64 redeclaringProgram =
      ⟨[.stored (some "sum") (.int 5), .stored (some "sum") (.int 10), .computed (.int (-10)),
        .stored (some "sum") (.int 7)], none⟩ := by
    decide
  have hdivision : (interpret .binary64 redeclaringProgram).fault? ≠ some .divisionByZero := by
    rw [hmeaning]
    intro hfault
    cases hfault
  obtain ⟨-, word, hrun, hword⟩ := run_emit rfl rfl hcode hdivision
  refine ⟨hcode, word, hrun, ?_⟩
  rw [hword, hmeaning]
  rfl

/-- Where the code of such a program returns, the slot of every name holds the last value that the
program stored under the name. -/
theorem cells_emit {program : Tree} {code : List Instr} (hprogram : program.isProgram = true)
    (hfit : program.programIntegersFit = true) (hcode : (emit program).result = .ok code)
    (hdivision : (interpret doubles program).fault? ≠ some .divisionByZero) :
    ∃ final, MachineState.stepAll doubles code.dropLast {} = some final ∧
      ∀ name slot, (emit program).state.slots.lookup name = some slot →
        ∃ number value, lastStored? name (interpret doubles program).effects = some number ∧
          final.cells slot.name = some ⟨slot.type, some value⟩ ∧ value.type = slot.type ∧
          Represents doubles number value := by
  obtain ⟨-, rfl, environment, final, htracks, hrecalls⟩ := tracks_emit hprogram hfit hcode hdivision
  refine ⟨final, ?_, fun name slot hslot ↦ ?_⟩
  · rw [List.dropLast_concat]
    exact htracks.reaches.ran
  · obtain ⟨found, value, hfound, hheld⟩ := htracks.stored.held hslot
    exact ⟨found.value, value, hrecalls name found hfound, hheld⟩

end LetLang
