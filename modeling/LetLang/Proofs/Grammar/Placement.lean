import LetLang.Proofs.Grammar.Derivation

/-!
# Where nodes may stand

A tree can hold any node in any place, and the parser puts each where it belongs: a program consists
of statements, statements otherwise occur only inside blocks, and a place that needs an expression
is neither empty nor taken by a statement (`Tree.placedProgram`). Nothing is said here about tiers
or literals. Derived trees are placed (`IsProgram.placed`).
-/

set_option autoImplicit false

namespace LetLang

namespace Tree

mutual

/-- Whether a tree may stand as an expression: it is no statement, and neither are the parts of it
that are not in blocks. -/
def placedExpression : Tree → Bool
  | absent | program _ | declaration .. | assignment .. | statement _ => false
  | arith _ left right => placedExpression left && placedExpression right
  | comparison left _ right => placedExpression left && placedExpression right
  | call _ arguments => placedExpressions arguments
  | block statements result =>
    placedStatements statements && (!result.isPresent || placedExpression result)
  | branch condition body => placedExpression condition && placedExpression body
  | conditional condition body branches otherwise =>
    placedExpression condition && placedExpression body && placedExpressions branches &&
      (!otherwise.isPresent || placedExpression otherwise)
  | negation factor => placedExpression factor
  | parenthesized expression => placedExpression expression
  | _ => true

/-- Whether several trees may stand as expressions. -/
def placedExpressions : List Tree → Bool
  | [] => true
  | tree :: rest => placedExpression tree && placedExpressions rest

/-- Whether a tree may stand as a statement: a declaration, an assignment or a statement that has an
expression for its value. -/
def placedStatement : Tree → Bool
  | declaration _ _ _ value => placedExpression value
  | assignment _ value => placedExpression value
  | statement expression => placedExpression expression
  | _ => false

/-- Whether several trees may stand as statements. -/
def placedStatements : List Tree → Bool
  | [] => true
  | tree :: rest => placedStatement tree && placedStatements rest

end

/-- Whether a tree is a program that consists of statements. -/
def placedProgram : Tree → Bool
  | program statements => placedStatements statements
  | _ => false

theorem placedExpression_of_mem {trees : List Tree} (hplaced : placedExpressions trees = true) :
    ∀ tree ∈ trees, tree.placedExpression = true := by
  induction trees with
  | nil => exact List.forall_mem_nil _
  | cons first rest ih =>
    rw [placedExpressions, Bool.and_eq_true] at hplaced
    exact List.forall_mem_cons.mpr ⟨hplaced.1, ih hplaced.2⟩

theorem placedStatement_of_mem {trees : List Tree} (hplaced : placedStatements trees = true) :
    ∀ tree ∈ trees, tree.placedStatement = true := by
  induction trees with
  | nil => exact List.forall_mem_nil _
  | cons first rest ih =>
    rw [placedStatements, Bool.and_eq_true] at hplaced
    exact List.forall_mem_cons.mpr ⟨hplaced.1, ih hplaced.2⟩

theorem placedStatements_append (first second : List Tree) :
    placedStatements (first ++ second) = (placedStatements first && placedStatements second) := by
  induction first with
  | nil => rfl
  | cons tree rest ih => simp [placedStatements, ih, Bool.and_assoc]

theorem placedExpression_of_isNumber {tree : Tree} (hnumber : tree.isNumber = true) :
    tree.placedExpression = true := by
  cases tree with
  | integer value => rfl
  | float value => rfl
  | _ => cases hnumber

end Tree

/-! ### Derived trees are placed -/

mutual

theorem IsFactor.placed {tree : Tree} {tokens : List Token} (h : IsFactor tree tokens) :
    tree.placedExpression = true := by
  match h with
  | .literal _ => rfl
  | .number _ hnumber => exact Tree.placedExpression_of_isNumber (Token.isNumber_of_number? hnumber)
  | .identifier _ => rfl
  | .emptyCall .. => rfl
  | .call _ _ harguments _ => exact harguments.placed
  | .parenthesized _ hinner _ => exact hinner.placed

theorem AreArguments.placed {trees : List Tree} {tokens : List Token}
    (h : AreArguments trees tokens) : Tree.placedExpressions trees = true := by
  match h with
  | .one hargument => simp [Tree.placedExpressions, hargument.placed]
  | .more hargument _ hrest => simp [Tree.placedExpressions, hargument.placed, hrest.placed]

theorem IsTerm.placed {tree : Tree} {tokens : List Token} (h : IsTerm tree tokens) :
    tree.placedExpression = true := by
  match h with
  | .factor hfactor => exact hfactor.placed
  | .negation _ hfactor => exact hfactor.placed
  | .step hleft _ hright => simp [Tree.placedExpression, hleft.placed, hright.placed]

theorem IsAdditive.placed {tree : Tree} {tokens : List Token} (h : IsAdditive tree tokens) :
    tree.placedExpression = true := by
  match h with
  | .term hterm => exact hterm.placed
  | .step hleft _ hright => simp [Tree.placedExpression, hleft.placed, hright.placed]

theorem IsExpression.placed {tree : Tree} {tokens : List Token} (h : IsExpression tree tokens) :
    tree.placedExpression = true := by
  match h with
  | .block hblock => exact hblock.placed
  | .conditional hconditional => exact hconditional.placed
  | .additive hadditive => exact hadditive.placed
  | .comparison hleft _ hright => simp [Tree.placedExpression, hleft.placed, hright.placed]

theorem IsEnded.placed {tree : Tree} {tokens : List Token} (h : IsEnded tree tokens) :
    tree.placedStatement = true := by
  match h with
  | .declaration _ _ _ _ _ hvalue _ => exact hvalue.placed
  | .assignment _ _ hvalue _ => exact hvalue.placed
  | .expression hexpression _ => exact hexpression.placed

theorem IsStatement.placed {tree : Tree} {tokens : List Token} (h : IsStatement tree tokens) :
    tree.placedStatement = true := by
  match h with
  | .ended hended => exact hended.placed
  | .braced _ hexpression => exact hexpression.placed

theorem AreStatements.placed {trees : List Tree} {tokens : List Token}
    (h : AreStatements trees tokens) : Tree.placedStatements trees = true := by
  match h with
  | .nil => rfl
  | .cons hstatement hrest => simp [Tree.placedStatements, hstatement.placed, hrest.placed]

theorem IsBlock.placed {tree : Tree} {tokens : List Token} (h : IsBlock tree tokens) :
    tree.placedExpression = true := by
  match h with
  | .empty .. => rfl
  | .ended _ hstatements hlast _ =>
    simp [Tree.placedExpression, Tree.placedStatements_append, Tree.placedStatements,
      Tree.isPresent, hstatements.placed, hlast.placed]
  | .result _ hstatements hresult _ =>
    simp [Tree.placedExpression, hstatements.placed, hresult.placed]

theorem IsConditional.placed {tree : Tree} {tokens : List Token} (h : IsConditional tree tokens) :
    tree.placedExpression = true := by
  match h with
  | .branching _ hcondition hbody hbranches hotherwise =>
    simp [Tree.placedExpression, hcondition.placed, hbody.placed, hbranches.placed,
      hotherwise.placed]

theorem AreBranches.placed {trees : List Tree} {tokens : List Token}
    (h : AreBranches trees tokens) : Tree.placedExpressions trees = true := by
  match h with
  | .nil => rfl
  | .cons _ _ hcondition hbody hrest =>
    simp [Tree.placedExpressions, Tree.placedExpression, hcondition.placed, hbody.placed,
      hrest.placed]

theorem IsOtherwise.placed {tree : Tree} {tokens : List Token} (h : IsOtherwise tree tokens) :
    (!tree.isPresent || tree.placedExpression) = true := by
  match h with
  | .absent => rfl
  | .block _ hbody => simp [hbody.placed]

end

theorem IsProgram.placed {tree : Tree} {tokens : List Token} (h : IsProgram tree tokens) :
    tree.placedProgram = true := by
  cases h with
  | program hstatements => exact hstatements.placed

end LetLang
