import LetLang.Proofs.Machine.Simulation
import LetLang.Proofs.Meaning.Reduction
import LetLang.Proofs.Scope.Declarations

/-!
# Integers are folded as 64-bit words

An expression of integers, parentheses, signs and operations has a value as a word of 64 bits:
addition, subtraction and multiplication wrap around, division drops the fraction, and there is no
value once something is divided by zero (`Tree.word?`). Reduction works on integers without a bound
and wraps each result. It comes to the same: the expression is reduced to the signed value of its
word, or it fails because of a division by zero exactly if it has no word (`visit_wordArithmetic`).
Without divisions, it makes no difference whether each result is wrapped or only the last one
(`Tree.word?_eq_exact`).

The reduction goes down only so many levels. An expression with more of them fails in any case
(`fails_reduce`), although it has a word; a long sum of ones is an example (`validate_longSum`).
-/

set_option autoImplicit false

namespace LetLang

/-! ### Words -/

namespace Tree

/-- Whether an expression is built from 64-bit integers by parentheses, signs and operations. -/
def isWordArithmetic : Tree → Bool
  | integer value => fitsInt64 value
  | parenthesized expression => expression.isWordArithmetic
  | negation factor => factor.isWordArithmetic
  | arith _ left right => left.isWordArithmetic && right.isWordArithmetic
  | _ => false

/-- The value of an expression as a word, computed from left to right up to the first division by
zero. -/
def word? : Tree → Option (BitVec 64)
  | integer value => some (BitVec.ofInt 64 value)
  | parenthesized expression => expression.word?
  | negation factor => do
    let word ← factor.word?
    return -word
  | arith op left right => do
    let leftWord ← left.word?
    let rightWord ← right.word?
    op.onWords leftWord rightWord
  | _ => none

/-- Whether there is a division in an expression. -/
def hasQuotient : Tree → Bool
  | parenthesized expression => expression.hasQuotient
  | negation factor => factor.hasQuotient
  | arith op left right => op == .quotient || left.hasQuotient || right.hasQuotient
  | _ => false

/-- The value of an expression without divisions among all integers. -/
def exact : Tree → Int
  | integer value => value
  | parenthesized expression => expression.exact
  | negation factor => -factor.exact
  | arith op left right => op.onIntegers left.exact right.exact
  | _ => 0

/-- The number of levels of an expression, the node at the top included. -/
def height : Tree → Nat
  | parenthesized expression => expression.height + 1
  | negation factor => factor.height + 1
  | arith _ left right => max left.height right.height + 1
  | _ => 1

end Tree

/-- An operation on the signed values of words is the operation on the words. -/
theorem ArithOp.apply_toInt (op : ArithOp) (left right : BitVec 64) :
    op.apply (.int left.toInt) (.int right.toInt) =
      match op.onWords left right with
      | some word => .ok (.int word.toInt)
      | none => .error .divisionByZero := by
  by_cases hdivisor : op = .quotient ∧ right.toInt = 0
  · obtain ⟨rfl, hzero⟩ := hdivisor
    obtain rfl : right = 0 := BitVec.toInt_inj.mp hzero
    rfl
  · obtain ⟨word, hword, hvalue⟩ := op.toInt_of_onWords left right hdivisor
    rw [hword, apply, if_neg hdivisor, wrapInt64_eq_bmod, ← hvalue]

theorem Number.negated_toInt (word : BitVec 64) :
    (Number.int word.toInt).negated = .int (-word).toInt := by
  rw [Number.negated, wrapInt64_eq_bmod, BitVec.toInt_neg]

/-! ### Expressions with a word -/

/-- From every state, the reduction returns the integer that the word stands for, and stops at a
division by zero if there is no word. -/
def Folds (reduction : Reduction Tree) (word? : Option (BitVec 64)) : Prop :=
  ∀ before, ∃ after, reduction before =
    match word? with
    | some word => .ok (.integer word.toInt) after
    | none => .error (.semantic .divisionByZero) after

namespace Folds

theorem pure (word : BitVec 64) : Folds (Pure.pure (.integer word.toInt)) (some word) :=
  fun before ↦ ⟨before, rfl⟩

theorem bind {first : Reduction Tree} {next : Tree → Reduction Tree} {word? : Option (BitVec 64)}
    {next? : BitVec 64 → Option (BitVec 64)} (hfirst : Folds first word?)
    (hnext : ∀ word : BitVec 64, Folds (next (.integer word.toInt)) (next? word)) :
    Folds (first >>= next) (word?.bind next?) := by
  intro before
  obtain ⟨middle, hrun⟩ := hfirst before
  cases word? with
  | none => exact ⟨middle, Run.bind_of_error hrun⟩
  | some word =>
    rw [Run.bind_of_ok hrun]
    exact hnext word middle

theorem parenthesized {inner : Reduction Tree} {word? : Option (BitVec 64)}
    (hinner : Folds inner word?) :
    Folds (inner >>= fun reduced ↦ Pure.pure (Reduction.parenthesized reduced)) word? := by
  have hkept : Folds (inner >>= fun reduced ↦ Pure.pure (Reduction.parenthesized reduced))
      (word?.bind some) := hinner.bind fun word ↦ .pure word
  rwa [Option.bind_fun_some] at hkept

theorem compute (op : ArithOp) (left right : BitVec 64) :
    Folds (Reduction.compute op (.int left.toInt) (.int right.toInt)) (op.onWords left right) := by
  intro before
  rw [Reduction.compute, op.apply_toInt]
  cases op.onWords left right with
  | none => exact ⟨before, rfl⟩
  | some word => exact ⟨_, rfl⟩

end Folds

/-- An expression is folded to its word, in both modes and whatever type is expected, by a reduction
that may go down as many levels as the expression has. -/
theorem folds_reduce (strict : Bool) (expected? : Option Tree) {tree : Tree} {levels : Nat}
    (htree : tree.isWordArithmetic = true) (hlevels : tree.height ≤ levels) :
    Folds (Reduction.reduce strict levels expected? tree) tree.word? := by
  induction levels generalizing tree with
  | zero => cases tree <;> simp [Tree.height] at hlevels
  | succ levels ih =>
    cases tree with
    | integer value =>
      have hvalue : (BitVec.ofInt 64 value).toInt = value := @represents_ofInt .binary64 value htree
      have hword := Folds.pure (BitVec.ofInt 64 value)
      rwa [hvalue] at hword
    | parenthesized expression =>
      have hinner : expression.isWordArithmetic = true := htree
      exact (ih hinner (Nat.le_of_succ_le_succ hlevels)).parenthesized
    | negation factor =>
      have hfactor : factor.isWordArithmetic = true := htree
      refine (ih hfactor (Nat.le_of_succ_le_succ hlevels)).bind fun word ↦ ?_
      change Folds (Pure.pure (Number.int word.toInt).negated.tree) (some (-word))
      rw [Number.negated_toInt]
      exact .pure (-word)
    | arith op left right =>
      obtain ⟨hleft, hright⟩ := Bool.and_eq_true_iff.mp htree
      obtain ⟨hleftLevels, hrightLevels⟩ := Nat.max_le.mp (Nat.le_of_succ_le_succ hlevels)
      refine (ih hleft hleftLevels).bind fun leftWord ↦ ?_
      exact (ih hright hrightLevels).bind fun rightWord ↦ .compute op leftWord rightWord
    | _ => cases htree

/-- Without divisions, the word is that of the exact value. -/
theorem Tree.word?_eq_exact {tree : Tree} (htree : tree.isWordArithmetic = true)
    (hquotient : tree.hasQuotient = false) : tree.word? = some (BitVec.ofInt 64 tree.exact) := by
  fun_induction Tree.exact tree with
  | case1 value => rfl
  | case2 expression ih => exact ih htree hquotient
  | case3 factor ih =>
    rw [Tree.word?, ih htree hquotient, BitVec.ofInt_neg]
    rfl
  | case4 op left right ihleft ihright =>
    obtain ⟨hleft, hright⟩ := Bool.and_eq_true_iff.mp htree
    simp only [Tree.hasQuotient, Bool.or_eq_false_iff, beq_eq_false_iff_ne] at hquotient
    obtain ⟨⟨hop, hleftFree⟩, hrightFree⟩ := hquotient
    rw [Tree.word?, ihleft hleft hleftFree, ihright hright hrightFree]
    cases op with
    | sum => exact congrArg some (BitVec.ofInt_add ..).symm
    | difference =>
      change some _ = some (BitVec.ofInt 64 (left.exact - right.exact))
      rw [Int.sub_eq_add_neg, BitVec.ofInt_add, BitVec.ofInt_neg, BitVec.sub_eq_add_neg]
    | product => exact congrArg some (BitVec.ofInt_mul ..).symm
    | quotient => exact absurd rfl hop
  | case5 tree => cases tree <;> simp_all [Tree.isWordArithmetic]

/-! ### Expressions with too many levels -/

/-- From every state, the reduction fails. -/
def Fails {α : Type} (reduction : Reduction α) : Prop :=
  ∀ before, ∃ failure after, reduction before = .error failure after

namespace Fails

variable {α β : Type} {first : Reduction α} {next : α → Reduction β}

theorem bind_left (hfirst : Fails first) : Fails (first >>= next) := by
  intro before
  obtain ⟨failure, after, hrun⟩ := hfirst before
  exact ⟨failure, after, Run.bind_of_error hrun⟩

theorem bind_right (hnext : ∀ value, Fails (next value)) : Fails (first >>= next) := by
  intro before
  cases hrun : first before with
  | ok value middle =>
    rw [Run.bind_of_ok hrun]
    exact hnext value middle
  | error failure after => exact ⟨failure, after, Run.bind_of_error hrun⟩

end Fails

theorem fails_reduce (strict : Bool) (expected? : Option Tree) {tree : Tree} {levels : Nat}
    (htree : tree.isWordArithmetic = true) (hlevels : levels < tree.height) :
    Fails (Reduction.reduce strict levels expected? tree) := by
  induction levels generalizing tree with
  | zero => exact fun before ↦ ⟨_, before, rfl⟩
  | succ levels ih =>
    cases tree with
    | integer value => simp [Tree.height] at hlevels
    | parenthesized expression =>
      have hinner : expression.isWordArithmetic = true := htree
      exact .bind_left (ih hinner (Nat.lt_of_succ_lt_succ hlevels))
    | negation factor =>
      have hfactor : factor.isWordArithmetic = true := htree
      exact .bind_left (ih hfactor (Nat.lt_of_succ_lt_succ hlevels))
    | arith op left right =>
      obtain ⟨hleft, hright⟩ := Bool.and_eq_true_iff.mp htree
      have hdeep : levels < left.height ∨ levels < right.height := by
        rw [Tree.height] at hlevels
        omega
      rcases hdeep with hdeep | hdeep
      · exact .bind_left (ih hleft hdeep)
      · exact .bind_right fun _ ↦ .bind_left (ih hright hdeep)
    | _ => cases htree

/-! ### Visits of a reducer -/

/-- A reducer folds an expression of 64-bit integers to the signed value of its word, and fails
because of a division by zero exactly if it has none; the word of an expression without divisions is
its exact value, wrapped once. All this is so if the expression has no more levels than are walked,
in every mode and whatever type is expected; with more levels it fails. -/
theorem visit_wordArithmetic (reducer : Reducer) {tree : Tree}
    (htree : tree.isWordArithmetic = true) :
    (tree.height ≤ Reduction.depthLimit →
      (reducer.visit tree).result =
        (match tree.word? with
        | some word => .ok (.integer word.toInt)
        | none => .error (.semantic .divisionByZero)) ∧
      (tree.hasQuotient = false →
        (reducer.visit tree).result = .ok (.integer (tree.exact.bmod 0x10000000000000000)))) ∧
    (Reduction.depthLimit < tree.height → ∃ failure, (reducer.visit tree).result = .error failure) := by
  refine ⟨fun hlevels ↦ ?_, fun hlevels ↦ ?_⟩
  · have hresult : (reducer.visit tree).result =
        (match tree.word? with
        | some word => .ok (.integer word.toInt)
        | none => .error (.semantic .divisionByZero)) := by
      obtain ⟨after, hrun⟩ :=
        folds_reduce reducer.strict reducer.expected? htree hlevels ⟨reducer.table, []⟩
      cases hword : tree.word? with
      | none =>
        rw [hword] at hrun
        rw [reducer.visit_of_error hrun]
      | some word =>
        rw [hword] at hrun
        rw [reducer.visit_of_ok hrun]
    refine ⟨hresult, fun hquotient ↦ ?_⟩
    rw [hresult, Tree.word?_eq_exact htree hquotient]
    exact congrArg (Except.ok ∘ Tree.integer) (BitVec.toInt_ofInt tree.exact)
  · obtain ⟨failure, after, hrun⟩ :=
      fails_reduce reducer.strict reducer.expected? htree hlevels ⟨reducer.table, []⟩
    exact ⟨failure, by rw [reducer.visit_of_error hrun]⟩

/-- The least integer divided by `-(1)`, where a double is expected. -/
def leastQuotient : Tree :=
  .arith .quotient (.integer int64Min) (.negation (.parenthesized (.integer 1)))

/-- The quotient is one too great for a word and wraps to the least integer again. -/
theorem visit_wordArithmetic_least :
    leastQuotient.word? = some (BitVec.intMin 64) ∧
      (Reducer.visit { expected? := some (.basicType .float) } leastQuotient).result =
        .ok (.integer int64Min) := by
  have hword : leastQuotient.word? = some (BitVec.intMin 64) := by decide
  have hfolded := (visit_wordArithmetic { expected? := some (.basicType .float) }
    (by decide : leastQuotient.isWordArithmetic = true)).1 (by decide)
  rw [hword] at hfolded
  exact ⟨hword, hfolded.1⟩

/-! ### A sum with too many levels -/

/-- A sum with the given number of additions, of ones. -/
def longSum : Nat → Tree
  | 0 => .integer 1
  | additions + 1 => .arith .sum (longSum additions) (.integer 1)

theorem isWordArithmetic_longSum (additions : Nat) :
    (longSum additions).isWordArithmetic = true := by
  induction additions with
  | zero => rfl
  | succ additions ih => rw [longSum, Tree.isWordArithmetic, ih]; rfl

theorem word?_longSum (additions : Nat) :
    (longSum additions).word? = some (BitVec.ofNat 64 (additions + 1)) := by
  induction additions with
  | zero => rfl
  | succ additions ih =>
    rw [longSum, Tree.word?, ih, BitVec.ofNat_add (additions + 1) 1]
    rfl

/-- The walk goes down on the left first, so nothing is added before it has gone too deep. -/
theorem reduce_longSum (strict : Bool) (expected? : Option Tree) (state : ReductionState)
    {levels additions : Nat} (hlevels : levels ≤ additions) :
    Reduction.reduce strict levels expected? (longSum additions) state =
      .error (.semantic .tooDeep) state := by
  induction levels generalizing additions with
  | zero => rfl
  | succ levels ih =>
    obtain ⟨fewer, rfl⟩ : ∃ fewer, additions = fewer + 1 := ⟨additions - 1, by omega⟩
    exact Run.bind_of_error (ih (Nat.le_of_succ_le_succ hlevels))

/-- A sum of 2601 ones has a word, but it has too many levels to be reduced. -/
theorem validate_longSum :
    (longSum 2600).isWordArithmetic = true ∧ (longSum 2600).word? = some 2601 ∧
      ∀ strict, (validate strict (.program [.statement (longSum 2600)])).result =
        .error (.semantic .tooDeep) := by
  refine ⟨isWordArithmetic_longSum 2600, word?_longSum 2600, fun strict ↦ ?_⟩
  have hsum := reduce_longSum strict none {} (by decide : Reduction.depthLimit - 2 ≤ 2600)
  have hrun : Reduction.reduce strict Reduction.depthLimit none
      (.program [.statement (longSum 2600)]) {} = .error (.semantic .tooDeep) {} :=
    Run.bind_of_error (Run.bind_of_error (Run.bind_of_error hsum))
  rw [validate, Reducer.validate, Reducer.visit_of_error { strict := strict } hrun]

end LetLang
