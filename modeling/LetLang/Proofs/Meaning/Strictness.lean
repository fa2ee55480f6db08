import LetLang.Proofs.Run
import LetLang.Reduction.Reduce

/-!
# What strictness adds to a reduction

Strict reduction rejects the arithmetic that lenient reduction keeps, and does nothing else: it
succeeds exactly where the lenient result has no arithmetic left, with the same result and the same
table of names, and where the lenient result has some, it stops at an operand that is no number
(`validate_strict`).

The two reductions are run side by side (`Tightens`). As long as no arithmetic was kept they are in
the same state. Once some is kept the strict one has stopped, and whatever the lenient one does
later, the node stays in its result (`Run.Returns`).
-/

set_option autoImplicit false

namespace LetLang

open Run (Returns)

/-! ### Arithmetic that is left -/

mutual

/-- Whether an operation or a change of sign is left in a tree, in any statement, block, branch,
condition or argument of it. -/
def Tree.hasArithmetic : Tree → Bool
  | .program statements => Tree.anyArithmetic statements
  | .declaration _ _ _ value => value.hasArithmetic
  | .assignment _ value => value.hasArithmetic
  | .statement expression => expression.hasArithmetic
  | .arith .. => true
  | .comparison left _ right => left.hasArithmetic || right.hasArithmetic
  | .call _ arguments => Tree.anyArithmetic arguments
  | .block statements result => Tree.anyArithmetic statements || result.hasArithmetic
  | .branch condition body => condition.hasArithmetic || body.hasArithmetic
  | .conditional condition body branches otherwise =>
    condition.hasArithmetic || body.hasArithmetic || Tree.anyArithmetic branches ||
      otherwise.hasArithmetic
  | .negation _ => true
  | .parenthesized expression => expression.hasArithmetic
  | _ => false

/-- The same of several trees. -/
def Tree.anyArithmetic : List Tree → Bool
  | [] => false
  | tree :: rest => tree.hasArithmetic || Tree.anyArithmetic rest

end

theorem Number.hasArithmetic_tree (number : Number) : number.tree.hasArithmetic = false := by
  cases number <;> rfl

theorem Tree.hasArithmetic_of_number? {tree : Tree} {number : Number}
    (hnumber : tree.number? = some number) : tree.hasArithmetic = false := by
  cases tree with
  | integer value => rfl
  | float value => rfl
  | _ => cases hnumber

theorem Tree.number?_of_hasArithmetic {tree : Tree} (hkept : tree.hasArithmetic = true) :
    tree.number? = none := by
  cases hnumber : tree.number? with
  | none => rfl
  | some number =>
    rw [Tree.hasArithmetic_of_number? hnumber] at hkept
    cases hkept

theorem Reduction.hasArithmetic_parenthesized (inner : Tree) :
    (Reduction.parenthesized inner).hasArithmetic = inner.hasArithmetic := by
  unfold Reduction.parenthesized
  split
  · rfl
  · rw [Tree.hasArithmetic]

/-! ### Two reductions side by side -/

/-- How a strict outcome goes with a lenient one: where the lenient reduction kept something the
strict one stopped at it, where it kept nothing they agree, and where it failed the strict one
failed. -/
def Tightened {α : Type} (kept : α → Bool) :
    EStateM.Result ReductionFailure ReductionState α →
      EStateM.Result ReductionFailure ReductionState α → Prop
  | .ok value after, strict =>
    (kept value = false ∧ strict = .ok value after) ∨
      (kept value = true ∧ ∃ operation operand later,
        strict = .error (.semantic (.irreducible operation operand)) later)
  | .error _ _, strict => ∃ failure later, strict = .error failure later

/-- The second reduction is the strict form of the first. -/
def Tightens {α : Type} (kept : α → Bool) (lenient strict : Reduction α) : Prop :=
  ∀ before, Tightened kept (lenient before) (strict before)

namespace Tightens

variable {α β : Type} {kept : α → Bool} {keptNext : β → Bool}

theorem same {reduction : Reduction α}
    (hnone : Returns (fun value ↦ kept value = false) reduction) :
    Tightens kept reduction reduction := by
  intro before
  cases hrun : reduction before with
  | ok value after => exact .inl ⟨hnone before value after hrun, rfl⟩
  | error failure after => exact ⟨failure, after, rfl⟩

/-- One after the other: what the first keeps, the second keeps too. -/
theorem bind {first first' : Reduction α} {next next' : α → Reduction β}
    (hfirst : Tightens kept first first')
    (hnext : ∀ value, kept value = false → Tightens keptNext (next value) (next' value))
    (hkept : ∀ value, kept value = true →
      Returns (fun result ↦ keptNext result = true) (next value)) :
    Tightens keptNext (first >>= next) (first' >>= next') := by
  intro before
  have hbefore := hfirst before
  cases hrun : first before with
  | error failure after =>
    rw [hrun] at hbefore
    obtain ⟨failure', after', hrun'⟩ := hbefore
    rw [Run.bind_of_error hrun, Run.bind_of_error hrun']
    exact ⟨failure', after', rfl⟩
  | ok value middle =>
    rw [hrun] at hbefore
    rw [Run.bind_of_ok hrun]
    rcases hbefore with ⟨hfree, hrun'⟩ | ⟨hvalue, operation, operand, later, hrun'⟩
    · rw [Run.bind_of_ok hrun']
      exact hnext value hfree middle
    · rw [Run.bind_of_error hrun']
      cases hlast : next value middle with
      | ok result after =>
        exact .inr ⟨hkept value hvalue middle result after hlast, operation, operand, later, rfl⟩
      | error failure after => exact ⟨_, _, rfl⟩

theorem mapM {body body' : Tree → Reduction Tree} {trees : List Tree}
    (hbody : ∀ tree, Tightens Tree.hasArithmetic (body tree) (body' tree)) :
    Tightens Tree.anyArithmetic (trees.mapM body) (trees.mapM body') := by
  induction trees with
  | nil =>
    rw [List.mapM_nil, List.mapM_nil]
    exact same (.pure rfl)
  | cons tree trees ih =>
    rw [List.mapM_cons, List.mapM_cons]
    refine bind (hbody tree) (fun first hfirst ↦ ?_) (fun first hfirst ↦ ?_)
    · refine bind ih (fun rest hrest ↦ same (.pure ?_)) (fun rest hrest ↦ .pure ?_)
      · simp [Tree.anyArithmetic, hfirst, hrest]
      · simp [Tree.anyArithmetic, hrest]
    · exact .bind fun rest ↦ .pure (by simp [Tree.anyArithmetic, hfirst])

theorem inScope {body body' : Reduction α} (hbody : Tightens kept body body') :
    Tightens kept (Reduction.inScope body) (Reduction.inScope body') := by
  intro before
  have hinner := hbody before.enter
  unfold Reduction.inScope
  cases hrun : body before.enter with
  | error failure after =>
    rw [hrun] at hinner
    obtain ⟨failure', after', hrun'⟩ := hinner
    rw [hrun']
    exact ⟨failure', after'.leave, rfl⟩
  | ok value after =>
    rw [hrun] at hinner
    rcases hinner with ⟨hfree, hrun'⟩ | ⟨hvalue, operation, operand, later, hrun'⟩
    · rw [hrun']
      exact .inl ⟨hfree, rfl⟩
    · rw [hrun']
      exact .inr ⟨hvalue, operation, operand, later.leave, rfl⟩

theorem ifPresent {body body' : Tree → Reduction Tree} {tree : Tree}
    (hbody : Tightens Tree.hasArithmetic (body tree) (body' tree)) :
    Tightens Tree.hasArithmetic (Reduction.ifPresent body tree)
      (Reduction.ifPresent body' tree) := by
  unfold Reduction.ifPresent
  split
  · exact hbody
  · exact same (.pure rfl)

end Tightens

/-! ### Arithmetic -/

theorem returns_compute (op : ArithOp) (left right : Number) :
    Returns (fun tree ↦ tree.hasArithmetic = false) (Reduction.compute op left right) := by
  unfold Reduction.compute
  split
  · next result _ => exact .bind fun _ ↦ .pure result.hasArithmetic_tree
  · exact .throw _

/-- Of operands that are not both numbers the strict operation stops at one, and the lenient one is
kept. -/
theorem tightens_arith (op : ArithOp) (left right : Tree) :
    Tightens Tree.hasArithmetic (Reduction.arith false op left right)
      (Reduction.arith true op left right) := by
  unfold Reduction.arith
  split
  · exact .same (returns_compute op _ _)
  · exact fun before ↦ .inr ⟨rfl, op.operation, right, before, rfl⟩
  · exact fun before ↦ .inr ⟨rfl, op.operation, left, before, rfl⟩

theorem tightens_negation (factor : Tree) :
    Tightens Tree.hasArithmetic (Reduction.negation false factor)
      (Reduction.negation true factor) := by
  unfold Reduction.negation
  split
  · next number _ => exact .same (.pure number.negated.hasArithmetic_tree)
  · exact fun before ↦ .inr ⟨rfl, "negation", factor, before, rfl⟩

theorem returns_arith_of_left {op : ArithOp} {left right : Tree}
    (hkept : left.hasArithmetic = true) :
    Returns (fun tree ↦ tree.hasArithmetic = true) (Reduction.arith false op left right) := by
  rw [Reduction.arith, Tree.number?_of_hasArithmetic hkept]
  exact .pure rfl

theorem returns_arith_of_right {op : ArithOp} {left right : Tree}
    (hkept : right.hasArithmetic = true) :
    Returns (fun tree ↦ tree.hasArithmetic = true) (Reduction.arith false op left right) := by
  rw [Reduction.arith, Tree.number?_of_hasArithmetic hkept]
  split
  · next hnone => cases hnone
  · exact .pure rfl
  · exact .pure rfl

theorem returns_negation {factor : Tree} (hkept : factor.hasArithmetic = true) :
    Returns (fun tree ↦ tree.hasArithmetic = true) (Reduction.negation false factor) := by
  rw [Reduction.negation, Tree.number?_of_hasArithmetic hkept]
  exact .pure rfl

theorem returns_literal (expected? : Option Tree) (lexeme : Lexeme) :
    Returns (fun tree ↦ tree.hasArithmetic = false) (Reduction.literal expected? lexeme) := by
  unfold Reduction.literal
  split
  · next number _ => exact .pure number.hasArithmetic_tree
  · exact .throw _

/-! ### Trees -/

theorem tightens_reduce (levels : Nat) : ∀ (expected? : Option Tree) (tree : Tree),
    Tightens Tree.hasArithmetic (Reduction.reduce false levels expected? tree)
      (Reduction.reduce true levels expected? tree) := by
  induction levels with
  | zero => exact fun expected? tree ↦ .same (.throw _)
  | succ levels ih =>
    intro expected? tree
    cases tree with
    | absent => exact .same (.throw _)
    | program statements =>
      exact .bind (.mapM (ih expected?)) (fun _ hfree ↦ .same (.pure hfree))
        fun _ hkept ↦ .pure hkept
    | declaration keyword name type value =>
      refine .bind (ih (some type) value) (fun _ hfree ↦ .same ?_) (fun _ hkept ↦ ?_)
      · exact .bind fun _ ↦ .pure hfree
      · exact .bind fun _ ↦ .pure hkept
    | assignment name value =>
      have hget : Tightens (fun _ ↦ false) (get : Reduction ReductionState) get :=
        .same fun _ _ _ _ ↦ rfl
      refine .bind hget (fun state _ ↦ ?_) (fun _ hkept ↦ nomatch hkept)
      exact .bind (ih _ value) (fun _ hfree ↦ .same (.pure hfree)) fun _ hkept ↦ .pure hkept
    | statement expression =>
      exact .bind (ih none expression) (fun _ hfree ↦ .same (.pure hfree)) fun _ hkept ↦ .pure hkept
    | arith op left right =>
      refine .bind (ih expected? left) (fun left _ ↦ ?_) (fun left hkept ↦ ?_)
      · refine .bind (ih expected? right) (fun right _ ↦ tightens_arith op left right) ?_
        exact fun right hkept ↦ returns_arith_of_right hkept
      · exact .bind fun right ↦ returns_arith_of_left hkept
    | comparison left op right =>
      refine .bind (ih none left) (fun left hleft ↦ ?_) (fun left hkept ↦ ?_)
      · refine .bind (ih none right) (fun right hright ↦ .same (.pure ?_))
          (fun right hkept ↦ .pure ?_)
        · simp [Tree.hasArithmetic, hleft, hright]
        · simp [Tree.hasArithmetic, hkept]
      · exact .bind fun right ↦ .pure (by simp [Tree.hasArithmetic, hkept])
    | call name arguments =>
      exact .bind (.mapM (ih none)) (fun _ hfree ↦ .same (.pure hfree)) fun _ hkept ↦ .pure hkept
    | block statements result =>
      apply Tightens.inScope
      refine .bind (.mapM (ih expected?)) (fun statements hfree ↦ ?_) (fun statements hkept ↦ ?_)
      · refine .bind (.ifPresent (ih expected? result)) (fun result hresult ↦ .same (.pure ?_))
          (fun result hkept ↦ .pure ?_)
        · simp [Tree.hasArithmetic, hfree, hresult]
        · simp [Tree.hasArithmetic, hkept]
      · exact .bind fun result ↦ .pure (by simp [Tree.hasArithmetic, hkept])
    | branch condition body =>
      refine .bind (ih none condition) (fun condition hcondition ↦ ?_) (fun condition hkept ↦ ?_)
      · refine .bind (ih expected? body) (fun body hbody ↦ .same (.pure ?_))
          (fun body hkept ↦ .pure ?_)
        · simp [Tree.hasArithmetic, hcondition, hbody]
        · simp [Tree.hasArithmetic, hkept]
      · exact .bind fun body ↦ .pure (by simp [Tree.hasArithmetic, hkept])
    | conditional condition body branches otherwise =>
      refine .bind (ih none condition) (fun condition hcondition ↦ ?_) (fun condition hkept ↦ ?_)
      · refine .bind (ih expected? body) (fun body hbody ↦ ?_) (fun body hkept ↦ ?_)
        · refine .bind (.mapM (ih expected?)) (fun branches hbranches ↦ ?_)
            (fun branches hkept ↦ ?_)
          · refine .bind (.ifPresent (ih expected? otherwise)) (fun last hlast ↦ .same (.pure ?_))
              (fun last hkept ↦ .pure ?_)
            · simp [Tree.hasArithmetic, hcondition, hbody, hbranches, hlast]
            · simp [Tree.hasArithmetic, hkept]
          · exact .bind fun last ↦ .pure (by simp [Tree.hasArithmetic, hkept])
        · exact .bind fun branches ↦ .bind fun last ↦ .pure (by simp [Tree.hasArithmetic, hkept])
      · refine .bind fun body ↦ .bind fun branches ↦ .bind fun last ↦ .pure ?_
        simp [Tree.hasArithmetic, hkept]
    | negation factor =>
      exact .bind (ih expected? factor) (fun factor _ ↦ tightens_negation factor)
        fun factor hkept ↦ returns_negation hkept
    | parenthesized expression =>
      refine .bind (ih expected? expression) (fun inner hfree ↦ .same (.pure ?_))
        (fun inner hkept ↦ .pure ?_)
      · rw [Reduction.hasArithmetic_parenthesized, hfree]
      · rw [Reduction.hasArithmetic_parenthesized, hkept]
    | literal lexeme => exact .same (returns_literal expected? lexeme)
    | identifier name => exact .same (.pure rfl)
    | integer value => exact .same (.pure rfl)
    | float value => exact .same (.pure rfl)
    | basicType name => exact .same (.pure rfl)
    | functionType parameters result => exact .same (.pure rfl)
    | parameter name type => exact .same (.pure rfl)

/-! ### Programs -/

/-- A strict reduction succeeds exactly where the lenient one does and no arithmetic is left in its
result, with the same result and the same table; and where some is left, it fails because an operand
is no number. -/
theorem validate_strict (program : Tree) :
    (∀ reduced table,
      ((validate true program).result = .ok reduced ∧
        (validate true program).reducer.table = table) ↔
      ((validate false program).result = .ok reduced ∧
        (validate false program).reducer.table = table ∧ reduced.hasArithmetic = false)) ∧
    ∀ reduced, (validate false program).result = .ok reduced → reduced.hasArithmetic = true →
      ∃ error, (validate true program).result = .error (.semantic error) ∧ error.code = "S002" := by
  have hboth := tightens_reduce Reduction.depthLimit none program ⟨{}, []⟩
  unfold validate Reducer.validate Reducer.visit
  dsimp only
  cases hlenient : Reduction.reduce false Reduction.depthLimit none program ⟨{}, []⟩ with
  | error failure after =>
    rw [hlenient] at hboth
    obtain ⟨failure', after', hstrict⟩ := hboth
    rw [hstrict]
    refine ⟨fun reduced table ↦ ⟨?_, ?_⟩, fun reduced hresult ↦ nomatch hresult⟩
    · exact fun hstrict ↦ nomatch hstrict.1
    · exact fun hlenient ↦ nomatch hlenient.1
  | ok found after =>
    rw [hlenient] at hboth
    rcases hboth with ⟨hfree, hstrict⟩ | ⟨hkept, operation, operand, later, hstrict⟩
    · rw [hstrict]
      refine ⟨fun reduced table ↦ ⟨?_, ?_⟩, fun reduced hresult hkept ↦ ?_⟩
      · rintro ⟨hresult, htable⟩
        cases hresult
        exact ⟨rfl, htable, hfree⟩
      · exact fun hlenient ↦ ⟨hlenient.1, hlenient.2.1⟩
      · cases hresult
        rw [hfree] at hkept
        cases hkept
    · rw [hstrict]
      refine ⟨fun reduced table ↦ ⟨?_, ?_⟩, fun reduced _ _ ↦ ⟨_, rfl, rfl⟩⟩
      · exact fun hstrict ↦ nomatch hstrict.1
      · rintro ⟨hresult, -, hfree⟩
        cases hresult
        rw [hkept] at hfree
        cases hfree

/-- The program `x + 1;`, with the literal read already. -/
def openProgram : Tree :=
  .program [.statement (.arith .sum (.identifier (some "x")) (.integer 1))]

/-- A name keeps its sum in the lenient mode and stops the strict one. -/
theorem validate_strict_open :
    (validate false openProgram).result = .ok openProgram ∧
      ∃ error, (validate true openProgram).result = .error (.semantic error) ∧
        error.code = "S002" := by
  have hlenient : (validate false openProgram).result = .ok openProgram := rfl
  exact ⟨hlenient, (validate_strict openProgram).2 openProgram hlenient rfl⟩

end LetLang
