import LetLang.Proofs.Machine.Simulation
import LetLang.Proofs.Machine.Typing

/-!
# Which programs are compiled

Compilation accepts the programs that are well typed and no others, and rejects any other program
for the first rule that it breaks (`emit_typed`).

A derivation of a type leads through the code of the expression (`HasType.visit`), and a derivation
of a broken rule leads to the error (`Breaks.visit`). As there is always one of the two, what
compilation does says which.
-/

set_option autoImplicit false

namespace LetLang

/-! ### Levels -/

mutual

/-- The number of levels that a compilation goes down a tree: it does not look into what it does not
compile. -/
def Tree.levels : Tree → Nat
  | .program statements => Tree.mostLevels statements + 1
  | .declaration _ _ _ value => value.levels + 1
  | .assignment _ value => value.levels + 1
  | .statement expression => expression.levels + 1
  | .arith _ left right => max left.levels right.levels + 1
  | .negation factor => factor.levels + 1
  | .parenthesized expression => expression.levels + 1
  | _ => 1

/-- The most levels of several trees. -/
def Tree.mostLevels : List Tree → Nat
  | [] => 0
  | tree :: rest => max tree.levels (Tree.mostLevels rest)

end

theorem Tree.exists_of_levels_le {tree : Tree} {levels : Nat} (hlevels : tree.levels ≤ levels) :
    ∃ below, levels = below + 1 := by
  have hpositive : 0 < tree.levels := by
    cases tree <;> simp [Tree.levels]
  exact ⟨levels - 1, by omega⟩

/-! ### Compiling expressions -/

/-- The types of the slots that the names have. -/
def EmissionState.types (state : EmissionState) : Types :=
  fun name ↦ (state.slots.lookup name).map Slot.type

namespace Emission

variable {types : Types} {state middle : EmissionState} {levels : Nat}

theorem needed_bind_of_ok {α : Type} {tree : Tree} {operand : Operand} {next : Operand → Emission α}
    (hvisit : visit levels tree state = .ok (some operand) middle) :
    (do next (← needed (← visit levels tree)) : Emission α) state = next operand middle := by
  rw [Run.bind_of_ok hvisit]
  rfl

theorem slotOf_of_some {name : Lexeme} {node : Tree} {type : ValueType}
    (hname : state.types name = some type) :
    ∃ slot, slotOf name node state = .ok slot state ∧ slot.type = type := by
  obtain ⟨slot, hslot, htype⟩ := Option.map_eq_some_iff.mp hname
  refine ⟨slot, ?_, htype⟩
  unfold slotOf
  rw [Run.get_bind, hslot]
  rfl

theorem slotOf_of_none {name : Lexeme} {node : Tree} (hname : state.types name = none) :
    slotOf name node state = .error (.emission (.unknownName name node)) state := by
  unfold slotOf
  rw [Run.get_bind, Option.map_eq_none_iff.mp hname]
  rfl

/-- Changing a sign takes one instruction. -/
theorem negate_eq (operand : Operand) (state : EmissionState) :
    ∃ negated after, negate operand state = .ok negated after ∧ negated.type = operand.type ∧
      after.types = state.types := by
  unfold negate
  cases operand.type with
  | int => exact ⟨_, _, compute_eq state .., rfl, rfl⟩
  | float => exact ⟨_, _, compute_eq state .., rfl, rfl⟩

theorem visit_arith_of_ok (op : ArithOp) {left right : Tree} {leftOperand rightOperand : Operand}
    {last : EmissionState} (hleft : visit levels left state = .ok (some leftOperand) middle)
    (hright : visit levels right middle = .ok (some rightOperand) last) :
    visit (levels + 1) (.arith op left right) state =
      if leftOperand.type = rightOperand.type then
        .ok (some (.register leftOperand.type (last.names.fresh (some (resultName op))).1))
          (last.record (some (resultName op)) fun name ↦
            .arith name op leftOperand.type leftOperand rightOperand)
      else
        .error (.emission (.mismatched leftOperand.type rightOperand.type (.arith op left right)))
          last := by
  rw [visit, Run.bind_of_ok hleft, Run.bind_of_ok hright]
  change (if leftOperand.type = rightOperand.type then _ else _ : Emission _) last = _
  by_cases htype : leftOperand.type = rightOperand.type
  · rw [if_pos htype, if_pos htype, Run.bind_of_ok (compute_eq last ..)]
    rfl
  · rw [if_neg htype, if_neg htype]
    rfl

end Emission

variable {types : Types} {state : EmissionState} {levels : Nat}

/-- The code of a typed expression leaves a value of its type. -/
theorem HasType.visit {tree : Tree} {type : ValueType} (htyped : HasType types tree type)
    (hlevels : tree.levels ≤ levels) (hstate : state.types = types) :
    ∃ operand after, Emission.visit levels tree state = .ok (some operand) after ∧
      operand.type = type ∧ after.types = types := by
  induction htyped generalizing levels state with
  | integer value =>
    obtain ⟨levels, rfl⟩ := Tree.exists_of_levels_le hlevels
    exact ⟨_, _, rfl, rfl, hstate⟩
  | float value =>
    obtain ⟨levels, rfl⟩ := Tree.exists_of_levels_le hlevels
    exact ⟨_, _, rfl, rfl, hstate⟩
  | @identifier name type hname =>
    obtain ⟨levels, rfl⟩ := Tree.exists_of_levels_le hlevels
    rw [← hstate] at hname
    obtain ⟨slot, hslot, rfl⟩ := Emission.slotOf_of_some hname
    have hload := Emission.load_eq state (name.shown ++ ".load") slot
    exact ⟨_, _, (Run.bind_of_ok hslot).trans (Run.bind_of_ok hload), rfl, hstate⟩
  | parenthesized hinner ih =>
    obtain ⟨levels, rfl⟩ := Tree.exists_of_levels_le hlevels
    exact ih (Nat.le_of_succ_le_succ hlevels) hstate
  | negation hfactor ih =>
    obtain ⟨levels, rfl⟩ := Tree.exists_of_levels_le hlevels
    obtain ⟨operand, middle, hvisit, htype, hmiddle⟩ :=
      ih (Nat.le_of_succ_le_succ hlevels) hstate
    obtain ⟨negated, after, hnegate, hnegated, hafter⟩ := Emission.negate_eq operand middle
    refine ⟨negated, after, ?_, hnegated.trans htype, hafter.trans hmiddle⟩
    rw [Emission.visit, Emission.needed_bind_of_ok hvisit, Run.bind_of_ok hnegate]
    rfl
  | @arith op left right type hleft hright ihleft ihright =>
    obtain ⟨levels, rfl⟩ := Tree.exists_of_levels_le hlevels
    obtain ⟨hleftLevels, hrightLevels⟩ := Nat.max_le.mp (Nat.le_of_succ_le_succ hlevels)
    obtain ⟨leftOperand, middle, hleftVisit, hleftType, hmiddle⟩ := ihleft hleftLevels hstate
    obtain ⟨rightOperand, last, hrightVisit, hrightType, hlast⟩ := ihright hrightLevels hmiddle
    have hvisit := Emission.visit_arith_of_ok op hleftVisit hrightVisit
    rw [if_pos (hleftType.trans hrightType.symm)] at hvisit
    exact ⟨_, _, hvisit, hleftType, hlast⟩

/-- The compilation of an expression that breaks a rule stops with the code of the rule. -/
theorem Breaks.visit {tree : Tree} {code : String} (hbroken : Breaks types tree code)
    (hlevels : tree.levels ≤ levels) (hstate : state.types = types) :
    ∃ error after, Emission.visit levels tree state = .error (.emission error) after ∧
      error.code = code := by
  induction hbroken generalizing levels state with
  | @uncompiled tree htree =>
    obtain ⟨levels, rfl⟩ := Tree.exists_of_levels_le hlevels
    refine ⟨.unsupportedNode tree, state, ?_, rfl⟩
    cases tree with
    | block | conditional | branch | comparison | call | literal => rfl
    | basicType | functionType | parameter => rfl
    | _ => cases htree
  | unknown hname =>
    obtain ⟨levels, rfl⟩ := Tree.exists_of_levels_le hlevels
    rw [← hstate] at hname
    exact ⟨_, _, Run.bind_of_error (Emission.slotOf_of_none hname), rfl⟩
  | parenthesized hinner ih =>
    obtain ⟨levels, rfl⟩ := Tree.exists_of_levels_le hlevels
    exact ih (Nat.le_of_succ_le_succ hlevels) hstate
  | negation hfactor ih =>
    obtain ⟨levels, rfl⟩ := Tree.exists_of_levels_le hlevels
    obtain ⟨error, after, hvisit, hcode⟩ := ih (Nat.le_of_succ_le_succ hlevels) hstate
    exact ⟨error, after, Run.bind_of_error hvisit, hcode⟩
  | left hleft ih =>
    obtain ⟨levels, rfl⟩ := Tree.exists_of_levels_le hlevels
    have hbelow := Nat.max_le.mp (Nat.le_of_succ_le_succ hlevels)
    obtain ⟨error, after, hvisit, hcode⟩ := ih hbelow.1 hstate
    exact ⟨error, after, Run.bind_of_error hvisit, hcode⟩
  | right hleft hright ih =>
    obtain ⟨levels, rfl⟩ := Tree.exists_of_levels_le hlevels
    have hbelow := Nat.max_le.mp (Nat.le_of_succ_le_succ hlevels)
    obtain ⟨operand, middle, hleftVisit, -, hmiddle⟩ := hleft.visit hbelow.1 hstate
    obtain ⟨error, after, hvisit, hcode⟩ := ih hbelow.2 hmiddle
    refine ⟨error, after, ?_, hcode⟩
    rw [Emission.visit, Run.bind_of_ok hleftVisit, Run.bind_of_error hvisit]
  | @operands op left right leftType rightType hleft hright hne =>
    obtain ⟨levels, rfl⟩ := Tree.exists_of_levels_le hlevels
    have hbelow := Nat.max_le.mp (Nat.le_of_succ_le_succ hlevels)
    obtain ⟨leftOperand, middle, hleftVisit, rfl, hmiddle⟩ := hleft.visit hbelow.1 hstate
    obtain ⟨rightOperand, last, hrightVisit, rfl, -⟩ := hright.visit hbelow.2 hmiddle
    have hvisit := Emission.visit_arith_of_ok op hleftVisit hrightVisit
    rw [if_neg hne] at hvisit
    exact ⟨_, _, hvisit, rfl⟩

/-! ### Compiling statements -/

theorem types_of_setSlot {before after : EmissionState} {name slotName : Lexeme} {type : ValueType}
    (hslots : after.slots = setSlot name ⟨slotName, type⟩ before.slots) :
    after.types = Function.update before.types name type := by
  funext other
  rw [EmissionState.types, hslots, lookup_setSlot, Function.update_apply]
  split
  · rfl
  · rfl

section

variable {declared node : Tree} {found : ValueType}

theorem storageType_of_takes (htakes : Takes declared found) :
    Emission.storageType declared found node state = .ok found state := by
  cases htakes with
  | number => rfl
  | int => rfl
  | float => rfl

theorem storageType_of_not_isStorable (hdeclared : declared.isStorable = false) :
    Emission.storageType declared found node state =
      .error (.emission (.unsupportedType declared node)) state := by
  unfold Emission.storageType
  split
  · cases hdeclared
  · cases hdeclared
  · cases hdeclared
  · rfl

theorem storageType_of_not_takes (hdeclared : declared.isStorable = true)
    (htakes : ¬ Takes declared found) :
    ∃ needed, Emission.storageType declared found node state =
      .error (.emission (.mismatched needed found node)) state := by
  cases declared with
  | basicType name =>
    cases name with
    | number => exact absurd (.number found) htakes
    | unit => cases hdeclared
    | int =>
      cases found with
      | int => exact absurd .int htakes
      | float => exact ⟨.int, rfl⟩
    | float =>
      cases found with
      | int => exact ⟨.float, rfl⟩
      | float => exact absurd .float htakes
  | _ => cases hdeclared

end

/-- The compilation of a well-typed statement succeeds and gives the variables their types. -/
theorem Admits.visit {statement : Tree} {after : Types} (htyped : Admits types statement after)
    (hlevels : statement.levels ≤ levels) (hstate : state.types = types) :
    ∃ value? last, Emission.visit levels statement state = .ok value? last ∧
      last.types = after := by
  obtain ⟨levels, rfl⟩ := Tree.exists_of_levels_le hlevels
  cases htyped with
  | @declaration keyword name declared value type hvalue htakes =>
    obtain ⟨operand, middle, hvisit, rfl, rfl⟩ :=
      hvalue.visit (Nat.le_of_succ_le_succ hlevels) hstate
    rw [Emission.visit, Emission.needed_bind_of_ok hvisit,
      Run.bind_of_ok (storageType_of_takes htakes)]
    exact ⟨_, _, rfl, types_of_setSlot rfl⟩
  | @assignment name value type hname hvalue =>
    rw [← hstate] at hname
    obtain ⟨slot, hslot, rfl⟩ := Emission.slotOf_of_some hname
    obtain ⟨operand, middle, hvisit, htype, hmiddle⟩ :=
      hvalue.visit (Nat.le_of_succ_le_succ hlevels) hstate
    rw [Emission.visit, Run.bind_of_ok hslot, Emission.needed_bind_of_ok hvisit]
    simp only [if_pos htype]
    exact ⟨_, _, rfl, hmiddle⟩
  | statement hexpression =>
    obtain ⟨operand, middle, hvisit, -, hmiddle⟩ :=
      hexpression.visit (Nat.le_of_succ_le_succ hlevels) hstate
    rw [Emission.visit, Emission.needed_bind_of_ok hvisit]
    by_cases hint : operand.type = .int
    · simp only [if_pos hint]
      exact ⟨_, _, rfl, hmiddle⟩
    · simp only [if_neg hint]
      exact ⟨_, _, rfl, hmiddle⟩

/-- The compilation of a statement that breaks a rule stops with the code of the rule. -/
theorem BreaksStatement.visit {statement : Tree} {code : String}
    (hbroken : BreaksStatement types statement code) (hlevels : statement.levels ≤ levels)
    (hstate : state.types = types) :
    ∃ error after, Emission.visit levels statement state = .error (.emission error) after ∧
      error.code = code := by
  obtain ⟨levels, rfl⟩ := Tree.exists_of_levels_le hlevels
  cases hbroken with
  | declaredValue hvalue =>
    obtain ⟨error, after, hvisit, hcode⟩ := hvalue.visit (Nat.le_of_succ_le_succ hlevels) hstate
    exact ⟨error, after, Run.bind_of_error hvisit, hcode⟩
  | @unstorable keyword name declared value type hvalue hdeclared =>
    obtain ⟨operand, middle, hvisit, rfl, -⟩ := hvalue.visit (Nat.le_of_succ_le_succ hlevels) hstate
    refine ⟨.unsupportedType declared (.declaration keyword name declared value), middle, ?_, rfl⟩
    rw [Emission.visit, Emission.needed_bind_of_ok hvisit]
    exact Run.bind_of_error (storageType_of_not_isStorable hdeclared)
  | @untaken keyword name declared value type hvalue hdeclared htakes =>
    obtain ⟨operand, middle, hvisit, rfl, -⟩ := hvalue.visit (Nat.le_of_succ_le_succ hlevels) hstate
    obtain ⟨needed, hstorage⟩ := storageType_of_not_takes hdeclared htakes
    refine ⟨.mismatched needed operand.type (.declaration keyword name declared value), middle, ?_,
      rfl⟩
    rw [Emission.visit, Emission.needed_bind_of_ok hvisit]
    exact Run.bind_of_error hstorage
  | unknown hname =>
    rw [← hstate] at hname
    exact ⟨_, state, Run.bind_of_error (Emission.slotOf_of_none hname), rfl⟩
  | assignedValue hname hvalue =>
    rw [← hstate] at hname
    obtain ⟨slot, hslot, -⟩ := Emission.slotOf_of_some hname
    obtain ⟨error, after, hvisit, hcode⟩ := hvalue.visit (Nat.le_of_succ_le_succ hlevels) hstate
    exact ⟨error, after, (Run.bind_of_ok hslot).trans (Run.bind_of_error hvisit), hcode⟩
  | @mismatched name value type found hname hvalue hne =>
    rw [← hstate] at hname
    obtain ⟨slot, hslot, rfl⟩ := Emission.slotOf_of_some hname
    obtain ⟨operand, middle, hvisit, rfl, -⟩ := hvalue.visit (Nat.le_of_succ_le_succ hlevels) hstate
    refine ⟨.mismatched slot.type operand.type (.assignment name value), middle, ?_, rfl⟩
    rw [Emission.visit, Run.bind_of_ok hslot, Emission.needed_bind_of_ok hvisit]
    simp only [if_neg hne]
    rfl
  | statement hexpression =>
    obtain ⟨error, after, hvisit, hcode⟩ :=
      hexpression.visit (Nat.le_of_succ_le_succ hlevels) hstate
    exact ⟨error, after, Run.bind_of_error hvisit, hcode⟩

/-! ### Compiling programs -/

/-- The compilation of statements one after the other, as a program does it. -/
def emitStatements (levels : Nat) (statements : List Tree) : Emission Unit :=
  statements.forM fun statement => do let _ ← Emission.visit levels statement

theorem emitStatements_cons (levels : Nat) (statement : Tree) (rest : List Tree) :
    emitStatements levels (statement :: rest) =
      Emission.visit levels statement >>= fun _ ↦ emitStatements levels rest := by
  change ((Emission.visit levels statement >>= fun _ ↦ pure ()) >>= fun _ ↦
    emitStatements levels rest) = _
  rw [bind_assoc]
  rfl

theorem AdmitsAll.accepted {statements : List Tree} {after : Types}
    (htyped : AdmitsAll types statements after) (hlevels : Tree.mostLevels statements ≤ levels)
    (hstate : state.types = types) :
    ∃ last, emitStatements levels statements state = .ok () last ∧ last.types = after := by
  induction htyped generalizing state with
  | nil types => exact ⟨state, rfl, hstate⟩
  | cons hfirst hrest ih =>
    obtain ⟨hfirstLevels, hrestLevels⟩ := Nat.max_le.mp hlevels
    obtain ⟨value?, middle, hvisit, hmiddle⟩ := hfirst.visit hfirstLevels hstate
    obtain ⟨last, hrun, hlast⟩ := ih hrestLevels hmiddle
    refine ⟨last, ?_, hlast⟩
    rw [emitStatements_cons, Run.bind_of_ok hvisit, hrun]

theorem BreaksOne.rejected {statements : List Tree} {code : String}
    (hbroken : BreaksOne types statements code) (hlevels : Tree.mostLevels statements ≤ levels)
    (hstate : state.types = types) :
    ∃ error after, emitStatements levels statements state = .error (.emission error) after ∧
      error.code = code := by
  induction hbroken generalizing state with
  | here hfirst =>
    obtain ⟨error, after, hvisit, hcode⟩ := hfirst.visit (Nat.max_le.mp hlevels).1 hstate
    refine ⟨error, after, ?_, hcode⟩
    rw [emitStatements_cons, Run.bind_of_error hvisit]
  | later hfirst hrest ih =>
    obtain ⟨hfirstLevels, hrestLevels⟩ := Nat.max_le.mp hlevels
    obtain ⟨value?, middle, hvisit, hmiddle⟩ := hfirst.visit hfirstLevels hstate
    obtain ⟨error, after, hrun, hcode⟩ := ih hrestLevels hmiddle
    refine ⟨error, after, ?_, hcode⟩
    rw [emitStatements_cons, Run.bind_of_ok hvisit, hrun]

theorem IsTyped.accepted {program : Tree} (htyped : IsTyped program types)
    (hlevels : program.levels ≤ Emission.depthLimit) :
    (∃ code, (emit program).result = .ok code) ∧ (emit program).state.types = types := by
  cases htyped with
  | @program statements types hstatements =>
    have hinitial : EmissionState.initial.types = fun _ ↦ none := rfl
    obtain ⟨last, hrun, rfl⟩ := hstatements.accepted (Nat.le_of_succ_le_succ hlevels) hinitial
    have hvisit : Emission.visit Emission.depthLimit (.program statements) .initial =
      .ok none last := Run.bind_of_ok hrun
    rw [emit, hvisit]
    exact ⟨⟨_, rfl⟩, rfl⟩

theorem IsMistyped.rejected {program : Tree} {code : String} (hbroken : IsMistyped program code)
    (hlevels : program.levels ≤ Emission.depthLimit) :
    ∃ error, (emit program).result = .error (.emission error) ∧ error.code = code := by
  cases hbroken with
  | @program statements code hstatements =>
    have hinitial : EmissionState.initial.types = fun _ ↦ none := rfl
    obtain ⟨error, after, hrun, hcode⟩ :=
      hstatements.rejected (Nat.le_of_succ_le_succ hlevels) hinitial
    have hvisit : Emission.visit Emission.depthLimit (.program statements) .initial =
      .error (.emission error) after := Run.bind_of_error hrun
    rw [emit, hvisit]
    exact ⟨error, rfl, hcode⟩

/-- A failure is an error with the code of the rule that the program breaks. -/
theorem exists_of_emit_eq_error {program : Tree} {failure : EmissionFailure}
    (hplaced : program.placedProgram = true) (hlevels : program.levels ≤ Emission.depthLimit)
    (hfailure : (emit program).result = .error failure) :
    ∃ error, failure = .emission error ∧ IsMistyped program error.code := by
  obtain ⟨types, htyped⟩ | ⟨code, hbroken⟩ := isTyped_or_isMistyped hplaced
  · obtain ⟨⟨instrs, hresult⟩, -⟩ := htyped.accepted hlevels
    rw [hresult] at hfailure
    cases hfailure
  · obtain ⟨error, hresult, rfl⟩ := hbroken.rejected hlevels
    rw [hresult] at hfailure
    cases hfailure
    exact ⟨error, rfl, hbroken⟩

/-- Compilation accepts exactly the well-typed programs, and the slots that it leaves have the types
of the variables. It rejects a program exactly with the code of the first rule that the program
breaks, and does not fail in any other way. -/
theorem emit_typed {program : Tree} (hplaced : program.placedProgram = true)
    (hlevels : program.levels ≤ Emission.depthLimit) :
    ((∃ code, (emit program).result = .ok code) ↔ ∃ types, IsTyped program types) ∧
    (∀ types, IsTyped program types →
      ∀ name, ((emit program).state.slots.lookup name).map Slot.type = types name) ∧
    (∀ code, IsMistyped program code ↔
      ∃ error, (emit program).result = .error (.emission error) ∧ error.code = code) ∧
    ∀ failure, (emit program).result = .error failure → ∃ error, failure = .emission error := by
  refine ⟨⟨?_, ?_⟩, ?_, fun code ↦ ⟨fun hbroken ↦ hbroken.rejected hlevels, ?_⟩, ?_⟩
  · rintro ⟨instrs, haccepted⟩
    refine (isTyped_or_isMistyped hplaced).resolve_right ?_
    rintro ⟨code, hbroken⟩
    obtain ⟨error, hrejected, -⟩ := hbroken.rejected hlevels
    rw [haccepted] at hrejected
    cases hrejected
  · rintro ⟨types, htyped⟩
    exact (htyped.accepted hlevels).1
  · exact fun types htyped name ↦ congrFun (htyped.accepted hlevels).2 name
  · rintro ⟨error, hrejected, rfl⟩
    obtain ⟨found, hfound, hbroken⟩ := exists_of_emit_eq_error hplaced hlevels hrejected
    cases hfound
    exact hbroken
  · intro failure hfailure
    obtain ⟨error, herror, -⟩ := exists_of_emit_eq_error hplaced hlevels hfailure
    exact ⟨error, herror⟩

/-- The statements `let x: number = 1; let x: float = -0.0; x = (x + x);`, with the literals read
already. -/
def redeclaringStatements : List Tree :=
  [.declaration .let_ (some "x") (.basicType .number) (.integer 1),
   .declaration .let_ (some "x") (.basicType .float) (.negation (.float ⟨0⟩)),
   .assignment (some "x")
     (.parenthesized (.arith .sum (.identifier (some "x")) (.identifier (some "x"))))]

/-- The same statements and `y = {};`. -/
def mistypedProgram : Tree :=
  .program (redeclaringStatements ++ [.assignment (some "y") (.block [] .absent)])

/-- The name `x` is a float in the end. The name `y` is unknown, which comes before the block that
is to be its value. -/
theorem emit_typed_redeclaring :
    (∃ code, (emit (.program redeclaringStatements)).result = .ok code) ∧
      ((emit (.program redeclaringStatements)).state.slots.lookup (some "x")).map Slot.type =
        some .float ∧
      ∃ error, (emit mistypedProgram).result = .error (.emission error) ∧ error.code = "C004" := by
  have htyped : IsTyped (.program redeclaringStatements)
      (Function.update (Function.update (fun _ ↦ none) (some "x") (some .int)) (some "x")
        (some .float)) := by
    refine .program (.cons (.declaration (.integer 1) (.number _)) ?_)
    refine .cons (.declaration (.negation (.float _)) .float) ?_
    refine .cons (.assignment rfl (.parenthesized ?_)) (.nil _)
    exact .arith (.identifier rfl) (.identifier rfl)
  have hmistyped : IsMistyped mistypedProgram "C004" := by
    refine .program (.later (.declaration (.integer 1) (.number _)) ?_)
    refine .later (.declaration (.negation (.float _)) .float) ?_
    refine .later (.assignment rfl (.parenthesized ?_)) (.here (.unknown rfl))
    exact .arith (.identifier rfl) (.identifier rfl)
  obtain ⟨haccepted, hslots, -⟩ :=
    @emit_typed (.program redeclaringStatements) rfl (by decide)
  obtain ⟨-, -, hrejected, -⟩ := @emit_typed mistypedProgram rfl (by decide)
  refine ⟨haccepted.mpr ⟨_, htyped⟩, ?_, (hrejected "C004").mp hmistyped⟩
  exact hslots _ htyped (some "x")

end LetLang
