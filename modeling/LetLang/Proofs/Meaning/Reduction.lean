import LetLang.Proofs.Meaning.Interpreter
import LetLang.Proofs.Run
import LetLang.Reduction.Reduce

/-!
# Reduction keeps the meaning of a program

A straight-line program that reduces, in the mode that keeps arithmetic on names, means the same
before and after (`interpret_validate`): its statements have the same effects in the same order, or
it stops at the same one for the same reason.

Two facts carry this. A reduced expression has the value of the expression it came from, whatever
the variables are, and it has no literals left, so no type matters to it (`Keeps`). And the type that
the table of names holds for a name is, after every statement, the type of the variable that the name
means (`Coupled`), so both sides read a literal under the same type.
-/

set_option autoImplicit false

namespace LetLang

/-! ### Arithmetic -/

theorem wrapInt64_eq_bmod (value : Int) : wrapInt64 value = value.bmod 0x10000000000000000 := by
  simp only [wrapInt64, int64Min, int64Count, Int.bmod]
  omega

/-- A folded operation means its result. -/
theorem ArithOp.meaning_of_apply {op : ArithOp} {left right result : Number}
    (happly : op.apply left right = .ok result) :
    op.meaning .binary64 left right = .ok result := by
  cases left with
  | int left =>
    cases right with
    | int right =>
      simp only [ArithOp.apply] at happly
      split at happly
      · cases happly
      · next hdivisor =>
        rw [ArithOp.meaning, if_neg hdivisor, ← wrapInt64_eq_bmod]
        exact congrArg Except.ok (Except.ok.inj happly)
    | float right => cases happly
  | float left =>
    cases right with
    | int right => cases happly
    | float right => exact congrArg Except.ok (Except.ok.inj happly)

theorem Number.negated_eq_opposite (number : Number) : number.negated = number.opposite .binary64 := by
  cases number with
  | int value => rw [Number.negated, Number.opposite, wrapInt64_eq_bmod]
  | float value => rfl

theorem Tree.eq_tree_of_number? {tree : Tree} {number : Number} (hnumber : tree.number? = some number) :
    tree = number.tree := by
  cases tree <;> simp [Tree.number?] at hnumber <;> subst hnumber <;> rfl

section

variable {doubles : DoubleOps} {environment : Environment} {expected? : Option Tree}

theorem evaluate_tree (number : Number) :
    evaluate doubles environment expected? number.tree = .ok number := by
  cases number <;> rfl

theorem evaluate_of_number? {tree : Tree} {number : Number} (hnumber : tree.number? = some number) :
    evaluate doubles environment expected? tree = .ok number := by
  rw [Tree.eq_tree_of_number? hnumber, evaluate_tree]

theorem evaluate_arith (op : ArithOp) (left right : Tree) :
    evaluate doubles environment expected? (.arith op left right) = (do
      let leftNumber ← evaluate doubles environment expected? left
      let rightNumber ← evaluate doubles environment expected? right
      op.meaning doubles leftNumber rightNumber) := rfl

end

/-! ### Expressions -/

/-- The faults that a run can come to once the program was reduced. -/
def Fault.atRun : Fault → Bool
  | unknownName | mixed | divisionByZero => true
  | badLiteral | unsupported => false

theorem ArithOp.atRun_of_meaning {doubles : DoubleOps} {op : ArithOp} {left right : Number}
    {fault : Fault} (hmeaning : op.meaning doubles left right = .error fault) :
    fault.atRun = true := by
  cases left <;> cases right <;> simp only [ArithOp.meaning] at hmeaning
  · split at hmeaning
    · cases hmeaning
      rfl
    · cases hmeaning
  all_goals
    cases hmeaning
    try rfl

/-- The reduced expression has the value of the original, whichever type is expected of it, and the
original has a value unless a run stops at it. -/
structure Keeps (expected? : Option Tree) (tree reduced : Tree) : Prop where
  value : ∀ environment another?, evaluate .binary64 environment another? reduced =
    evaluate .binary64 environment expected? tree
  fault : ∀ environment fault, evaluate .binary64 environment expected? tree = .error fault →
    fault.atRun = true

section

variable {expected? : Option Tree} {left right left' right' factor factor' reduced : Tree}
  {before after : ReductionState}

theorem Keeps.of_number? (hkeeps : Keeps expected? left left') {number : Number}
    (hnumber : left'.number? = some number) (environment : Environment) :
    evaluate .binary64 environment expected? left = .ok number := by
  rw [← hkeeps.value environment expected?, evaluate_of_number? hnumber]

/-- An operation whose operands have their values keeps them, folded or not. -/
theorem keeps_arith {op : ArithOp} (hleft : Keeps expected? left left')
    (hright : Keeps expected? right right')
    (hreduced : Reduction.arith false op left' right' before = .ok reduced after) :
    after.table = before.table ∧ Keeps expected? (.arith op left right) reduced := by
  have hfault : ∀ environment fault,
      evaluate .binary64 environment expected? (.arith op left right) = .error fault →
        fault.atRun = true := by
    intro environment fault hstop
    rw [evaluate_arith] at hstop
    cases hleftRun : evaluate .binary64 environment expected? left with
    | error found =>
      rw [hleftRun] at hstop
      cases hstop
      exact hleft.fault environment fault hleftRun
    | ok leftNumber =>
      cases hrightRun : evaluate .binary64 environment expected? right with
      | error found =>
        rw [hleftRun, hrightRun] at hstop
        cases hstop
        exact hright.fault environment fault hrightRun
      | ok rightNumber =>
        rw [hleftRun, hrightRun] at hstop
        exact ArithOp.atRun_of_meaning hstop
  have hkept : (.ok (.arith op left' right') before : EStateM.Result ReductionFailure _ _) =
      .ok reduced after →
        after.table = before.table ∧ Keeps expected? (.arith op left right) reduced := by
    intro hsame
    cases hsame
    refine ⟨rfl, fun environment another? ↦ ?_, hfault⟩
    rw [evaluate_arith, evaluate_arith, hleft.value environment, hright.value environment]
  unfold Reduction.arith at hreduced
  cases hleftNumber : left'.number? with
  | none =>
    rw [hleftNumber] at hreduced
    exact hkept hreduced
  | some leftNumber =>
    cases hrightNumber : right'.number? with
    | none =>
      rw [hleftNumber, hrightNumber] at hreduced
      exact hkept hreduced
    | some rightNumber =>
      rw [hleftNumber, hrightNumber] at hreduced
      change Reduction.compute op leftNumber rightNumber before = .ok reduced after at hreduced
      unfold Reduction.compute at hreduced
      cases hresult : op.apply leftNumber rightNumber with
      | error error =>
        rw [hresult] at hreduced
        cases hreduced
      | ok result =>
        rw [hresult] at hreduced
        cases hreduced
        refine ⟨rfl, fun environment another? ↦ ?_, hfault⟩
        rw [evaluate_tree, evaluate_arith, hleft.of_number? hleftNumber,
          hright.of_number? hrightNumber]
        exact (ArithOp.meaning_of_apply hresult).symm

theorem keeps_negation (hfactor : Keeps expected? factor factor')
    (hreduced : Reduction.negation false factor' before = .ok reduced after) :
    after.table = before.table ∧ Keeps expected? (.negation factor) reduced := by
  have hfault : ∀ environment fault,
      evaluate .binary64 environment expected? (.negation factor) = .error fault →
        fault.atRun = true := by
    intro environment fault hstop
    cases hrun : evaluate .binary64 environment expected? factor with
    | error found =>
      rw [evaluate, hrun] at hstop
      cases hstop
      exact hfactor.fault environment fault hrun
    | ok number =>
      rw [evaluate, hrun] at hstop
      cases hstop
  unfold Reduction.negation at hreduced
  cases hnumber : factor'.number? with
  | none =>
    rw [hnumber] at hreduced
    cases hreduced
    refine ⟨rfl, fun environment another? ↦ ?_, hfault⟩
    rw [evaluate, evaluate, hfactor.value environment]
  | some number =>
    rw [hnumber] at hreduced
    cases hreduced
    refine ⟨rfl, fun environment another? ↦ ?_, hfault⟩
    rw [evaluate_tree, evaluate, hfactor.of_number? hnumber, Number.negated_eq_opposite]
    rfl

theorem keeps_parenthesized (hfactor : Keeps expected? factor factor') :
    Keeps expected? (.parenthesized factor) (Reduction.parenthesized factor') := by
  refine ⟨fun environment another? ↦ ?_, fun environment fault hstop ↦ ?_⟩
  · unfold Reduction.parenthesized
    split
    · exact hfactor.value environment another?
    · exact hfactor.value environment another?
  · exact hfactor.fault environment fault hstop

theorem keeps_literal {lexeme : Lexeme}
    (hreduced : Reduction.literal expected? lexeme before = .ok reduced after) :
    after.table = before.table ∧ Keeps expected? (.literal lexeme) reduced := by
  unfold Reduction.literal at hreduced
  cases hnumber : resolveLexeme lexeme expected? with
  | error failure =>
    rw [hnumber] at hreduced
    cases hreduced
  | ok number =>
    rw [hnumber] at hreduced
    cases hreduced
    have hvalue : ∀ environment,
        evaluate .binary64 environment expected? (.literal lexeme) = .ok number := by
      intro environment
      rw [evaluate, hnumber]
    refine ⟨rfl, fun environment another? ↦ ?_, fun environment fault hstop ↦ ?_⟩
    · rw [evaluate_tree, hvalue]
    · rw [hvalue] at hstop
      cases hstop

end

/-- A reduced expression keeps its value, and its reduction leaves the table of names alone. -/
theorem keeps_reduce (levels : Nat) : ∀ {expected? : Option Tree} {tree reduced : Tree}
    {before after : ReductionState}, tree.isArithmetic = true →
      Reduction.reduce false levels expected? tree before = .ok reduced after →
        after.table = before.table ∧ Keeps expected? tree reduced := by
  induction levels with
  | zero =>
    intro expected? tree reduced before after _ hreduced
    cases hreduced
  | succ levels ih =>
    intro expected? tree reduced before after harithmetic hreduced
    cases tree with
    | literal lexeme => exact keeps_literal hreduced
    | integer value =>
      cases hreduced
      exact ⟨rfl, fun _ _ ↦ rfl, fun _ _ hstop ↦ by cases hstop⟩
    | float value =>
      cases hreduced
      exact ⟨rfl, fun _ _ ↦ rfl, fun _ _ hstop ↦ by cases hstop⟩
    | identifier name =>
      cases hreduced
      refine ⟨rfl, fun _ _ ↦ rfl, fun environment fault hstop ↦ ?_⟩
      rw [evaluate] at hstop
      split at hstop
      · cases hstop
      · cases hstop
        rfl
    | parenthesized expression =>
      rw [Tree.isArithmetic] at harithmetic
      obtain ⟨inner, middle, hinner, hlast⟩ := Run.exists_of_bind_eq_ok hreduced
      cases hlast
      obtain ⟨htable, hkeeps⟩ := ih harithmetic hinner
      exact ⟨htable, keeps_parenthesized hkeeps⟩
    | negation factor =>
      rw [Tree.isArithmetic] at harithmetic
      obtain ⟨inner, middle, hinner, hlast⟩ := Run.exists_of_bind_eq_ok hreduced
      obtain ⟨htable, hkeeps⟩ := ih harithmetic hinner
      obtain ⟨hlastTable, hnegation⟩ := keeps_negation hkeeps hlast
      exact ⟨hlastTable.trans htable, hnegation⟩
    | arith op left right =>
      rw [Tree.isArithmetic] at harithmetic
      obtain ⟨hleft, hright⟩ := Bool.and_eq_true_iff.mp harithmetic
      obtain ⟨left', middle, hleftRun, hnext⟩ := Run.exists_of_bind_eq_ok hreduced
      obtain ⟨right', last, hrightRun, hlast⟩ := Run.exists_of_bind_eq_ok hnext
      obtain ⟨hleftTable, hleftKeeps⟩ := ih hleft hleftRun
      obtain ⟨hrightTable, hrightKeeps⟩ := ih hright hrightRun
      obtain ⟨hlastTable, harith⟩ := keeps_arith hleftKeeps hrightKeeps hlast
      exact ⟨hlastTable.trans (hrightTable.trans hleftTable), harith⟩
    | _ => cases harithmetic

/-! ### The table of names -/

theorem Frame.lookup_add (name other : Lexeme) (binding : Binding) (frame : Frame) :
    ((Frame.add name binding frame).lookup other).bind List.getLast? =
      if other = name then some binding else (frame.lookup other).bind List.getLast? := by
  induction frame with
  | nil =>
    rw [Frame.add, lookup_cons_eq_ite]
    by_cases hname : other = name
    · rw [if_pos hname, if_pos hname]
      rfl
    · rw [if_neg hname, if_neg hname]
  | cons entry rest ih =>
    obtain ⟨first, bindings⟩ := entry
    rw [Frame.add]
    by_cases hfirst : first = name
    · subst hfirst
      rw [if_pos rfl, lookup_cons_eq_ite, lookup_cons_eq_ite]
      by_cases hname : other = first
      · rw [if_pos hname, if_pos hname]
        simp
      · rw [if_neg hname, if_neg hname, if_neg hname]
    · rw [if_neg hfirst, lookup_cons_eq_ite, lookup_cons_eq_ite]
      by_cases hname : other = first
      · subst hname
        rw [if_pos rfl, if_pos rfl, if_neg hfirst]
      · rw [if_neg hname, if_neg hname, ih]

/-- After a declaration, its name means what was declared, and every other name what it meant. -/
theorem Table.lookup?_declare (table : Table) (name other : Lexeme) (binding : Binding) :
    (table.declare name binding).lookup? other =
      if other = name then some binding else table.lookup? other := by
  unfold Table.declare Table.lookup?
  by_cases hname : other = name
  · cases table.frames with
    | nil => simp only [List.findSome?_cons, Frame.lookup_add, if_pos hname]
    | cons frame outer => simp only [List.findSome?_cons, Frame.lookup_add, if_pos hname]
  · cases table.frames with
    | nil => simp only [List.findSome?_cons, Frame.lookup_add, if_neg hname, List.findSome?_nil,
        List.lookup_nil, Option.bind_none]
    | cons frame outer => simp only [List.findSome?_cons, Frame.lookup_add, if_neg hname]

theorem ReductionState.lookup?_declare (state : ReductionState) (name other : Lexeme)
    (binding : Binding) : (state.declare name binding).table.lookup? other =
      if other = name then some binding else state.table.lookup? other := by
  unfold ReductionState.declare
  simp only [Table.lookup?_declare]
  split
  · rfl
  · split
    · rfl
    · rfl

/-! ### Statements -/

/-- The types that the table holds are those of the variables. -/
def Coupled (table : Table) (environment : Environment) : Prop :=
  ∀ name, (table.lookup? name).map Binding.type =
    (environment.lookup? name).map Variable.type

theorem coupled_empty : Coupled {} [] := fun _ ↦ rfl

/-- What a reduced statement does is what the statement does; if it is carried out, the table and the
variables keep in step. -/
structure KeepsStep (environment : Environment) (statement reduced : Tree) (table : Table) :
    Prop where
  step : execute .binary64 environment reduced = execute .binary64 environment statement
  fault : ∀ fault, execute .binary64 environment statement = .error fault → fault.atRun = true
  coupled : ∀ later effect, execute .binary64 environment statement = .ok (later, effect) →
    Coupled table later

/-- Every statement computes a value, and what it does with it does not depend on how the value was
written. -/
theorem keepsStep_of_value {environment : Environment} {statement reduced value value' : Tree}
    {expected? : Option Tree} {table : Table} {next : Number → Except Fault (Environment × Effect)}
    (hvalue : Keeps expected? value value')
    (hstatement : execute .binary64 environment statement =
      evaluate .binary64 environment expected? value >>= next)
    (hreduced : execute .binary64 environment reduced =
      evaluate .binary64 environment expected? value' >>= next)
    (hfault : ∀ number fault, next number = .error fault → fault.atRun = true)
    (hcoupled : ∀ number later effect, next number = .ok (later, effect) → Coupled table later) :
    KeepsStep environment statement reduced table := by
  constructor
  · rw [hstatement, hreduced, hvalue.value environment expected?]
  · intro fault hstop
    rw [hstatement] at hstop
    cases hrun : evaluate .binary64 environment expected? value with
    | error found =>
      rw [hrun] at hstop
      cases hstop
      exact hvalue.fault environment fault hrun
    | ok number =>
      rw [hrun] at hstop
      exact hfault number fault hstop
  · intro later effect hdone
    rw [hstatement] at hdone
    cases hrun : evaluate .binary64 environment expected? value with
    | error found =>
      rw [hrun] at hdone
      cases hdone
    | ok number =>
      rw [hrun] at hdone
      exact hcoupled number later effect hdone

/-- One statement: its reduction does what it does, and keeps the table in step. -/
theorem keepsStep_reduce {levels : Nat} {environment : Environment} {statement reduced : Tree}
    {before after : ReductionState} (hstraight : statement.isStraight = true)
    (hcoupled : Coupled before.table environment)
    (hreduced : Reduction.reduce false levels none statement before = .ok reduced after) :
    KeepsStep environment statement reduced after.table := by
  cases levels with
  | zero => cases hreduced
  | succ levels =>
    cases statement with
    | declaration keyword name type value =>
      obtain ⟨value', middle, hvalue, hnext⟩ := Run.exists_of_bind_eq_ok hreduced
      cases hnext
      obtain ⟨htable, hkeeps⟩ := keeps_reduce levels hstraight hvalue
      refine keepsStep_of_value hkeeps rfl rfl (fun number fault hstop ↦ by cases hstop) ?_
      intro number later effect hdone other
      cases hdone
      rw [ReductionState.lookup?_declare, Environment.lookup?_cons, htable]
      by_cases hname : name = other
      · rw [if_pos hname, if_pos hname.symm]
        rfl
      · rw [if_neg hname, if_neg (Ne.symm hname)]
        exact hcoupled other
    | assignment name value =>
      obtain ⟨state, _, hstate, hreduced⟩ := Run.exists_of_bind_eq_ok hreduced
      cases hstate
      obtain ⟨value', middle, hvalue, hnext⟩ := Run.exists_of_bind_eq_ok hreduced
      cases hnext
      rw [hcoupled name] at hvalue
      obtain ⟨htable, hkeeps⟩ := keeps_reduce levels hstraight hvalue
      refine keepsStep_of_value hkeeps rfl rfl (fun number fault hstop ↦ ?_) ?_
      · split at hstop
        · cases hstop
        · cases hstop
          rfl
      · intro number later effect hdone other
        split at hdone
        · cases hdone
          rw [htable, hcoupled other, Environment.lookup?_assign]
          by_cases hname : other = name
          · subst hname
            rw [if_pos rfl, Option.map_map]
            rfl
          · rw [if_neg hname]
        · cases hdone
    | statement expression =>
      obtain ⟨value', middle, hvalue, hnext⟩ := Run.exists_of_bind_eq_ok hreduced
      cases hnext
      obtain ⟨htable, hkeeps⟩ := keeps_reduce levels hstraight hvalue
      refine keepsStep_of_value hkeeps rfl rfl (fun number fault hstop ↦ by cases hstop) ?_
      intro number later effect hdone
      cases hdone
      rw [htable]
      exact hcoupled
    | _ => cases hstraight

/-! ### Programs -/

/-- A run of the reduced statements is a run of the statements. -/
theorem runStatements_reduce {levels : Nat} {statements : List Tree} :
    ∀ {reduced : List Tree} {environment : Environment} {before after : ReductionState},
      statements.all Tree.isStraight = true → Coupled before.table environment →
      statements.mapM (Reduction.reduce false levels none) before = .ok reduced after →
        runStatements .binary64 environment reduced =
            runStatements .binary64 environment statements ∧
          ∀ fault, (runStatements .binary64 environment statements).fault? = some fault →
            fault.atRun = true := by
  induction statements with
  | nil =>
    intro reduced environment before after _ _ hreduced
    cases hreduced
    exact ⟨rfl, fun fault hfault ↦ by cases hfault⟩
  | cons statement statements ih =>
    intro reduced environment before after hstraight hcoupled hreduced
    rw [List.all_cons, Bool.and_eq_true] at hstraight
    rw [List.mapM_cons] at hreduced
    obtain ⟨first, middle, hfirst, hnext⟩ := Run.exists_of_bind_eq_ok hreduced
    obtain ⟨others, last, hothers, hpure⟩ := Run.exists_of_bind_eq_ok hnext
    cases hpure
    have hstep := keepsStep_reduce hstraight.1 hcoupled hfirst
    rw [runStatements, runStatements, hstep.step]
    cases hrun : execute .binary64 environment statement with
    | error fault =>
      exact ⟨rfl, fun found hfound ↦ by cases hfound; exact hstep.fault fault hrun⟩
    | ok done =>
      obtain ⟨later, effect⟩ := done
      obtain ⟨hsame, hfaults⟩ := ih hstraight.2 (hstep.coupled later effect hrun) hothers
      simp only [hsame]
      exact ⟨trivial, hfaults⟩

theorem exists_of_validate_eq_ok {strict : Bool} {program reduced : Tree}
    (hreduced : (validate strict program).result = .ok reduced) :
    ∃ state, Reduction.reduce strict Reduction.depthLimit none program ⟨{}, []⟩ =
      .ok reduced state := by
  unfold validate Reducer.validate Reducer.visit at hreduced
  cases hrun : Reduction.reduce strict Reduction.depthLimit none program ⟨{}, []⟩ with
  | ok found state =>
    simp only [hrun] at hreduced
    cases hreduced
    exact ⟨state, rfl⟩
  | error failure state =>
    simp only [hrun] at hreduced
    cases hreduced

/-- Reduction that keeps arithmetic on names keeps the meaning of a straight-line program: the reduced
program has the same effects in the same order, or stops at the same statement for the same reason,
which is an unknown name, numbers of different sorts or a division by zero. -/
theorem interpret_validate {program reduced : Tree} (hstraight : program.isStraightLine = true)
    (hreduced : (validate false program).result = .ok reduced) :
    interpret .binary64 reduced = interpret .binary64 program ∧
      ∀ fault, (interpret .binary64 program).fault? = some fault →
        fault = .unknownName ∨ fault = .mixed ∨ fault = .divisionByZero := by
  cases program with
  | program statements =>
    obtain ⟨state, hrun⟩ := exists_of_validate_eq_ok hreduced
    obtain ⟨others, middle, hothers, hpure⟩ := Run.exists_of_bind_eq_ok hrun
    cases hpure
    obtain ⟨hsame, hfaults⟩ := runStatements_reduce hstraight coupled_empty hothers
    refine ⟨hsame, fun fault hfault ↦ ?_⟩
    have hatRun := hfaults fault hfault
    cases fault <;> simp_all [Fault.atRun]
  | _ => cases hstraight

/-- The program `let x: int = 1 + 2; -x;`. -/
def foldingProgram : Tree :=
  .program
    [.declaration .let_ (some "x") (.basicType .int)
      (.arith .sum (.literal (some "1")) (.literal (some "2"))),
     .statement (.negation (.identifier (some "x")))]

/-- The sum is folded and the negation is kept; the reduced program stores the same three and computes
the same opposite of it. -/
theorem interpret_validate_folded :
    ∃ reduced, (validate false foldingProgram).result = .ok reduced ∧
      interpret .binary64 reduced =
        ⟨[.stored (some "x") (.int 3), .computed (.int (-3))], none⟩ := by
  have hok : (validate false foldingProgram).result.isOk = true := by decide +kernel
  have hmeaning : interpret .binary64 foldingProgram =
      ⟨[.stored (some "x") (.int 3), .computed (.int (-3))], none⟩ := by
    decide +kernel
  cases hresult : (validate false foldingProgram).result with
  | error failure =>
    rw [hresult] at hok
    cases hok
  | ok reduced => exact ⟨reduced, rfl, (interpret_validate rfl hresult).1.trans hmeaning⟩

end LetLang
