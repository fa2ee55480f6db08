import LetLang.Reduction.Fold
import LetLang.Reduction.Literal
import LetLang.Trace

/-!
# Reducing a tree

Reducing a tree: literals become numbers, arithmetic on numbers is carried out, parentheses around a
number go away, and declarations are recorded in the table of names, a scope for each block.

The type that the context expects is handed down (`expected?`): a declaration expects its declared
type of its value, an assignment the type of the binding in force, and both pass through arithmetic,
negation, parentheses and the last expression of blocks and branches; conditions, operands of
comparisons, arguments and expressions that are statements expect nothing.

Arithmetic on something that is not a number is an error in strict mode and is kept, over its
reduced operands, otherwise. The walk goes down a fixed number of levels (`Reduction.depthLimit`).
-/

set_option autoImplicit false

namespace LetLang

/-- What a reduction changes: the table of names and the trace, its latest event first. -/
structure ReductionState where
  table : Table := {}
  trace : List Event := []

/-- A part of a reduction. -/
abbrev Reduction (α : Type) : Type := EStateM ReductionFailure ReductionState α

namespace ReductionState

/-- Opens a scope. -/
def enter (state : ReductionState) : ReductionState :=
  let table := state.table.push
  ⟨table, .entered table.depth :: state.trace⟩

/-- Closes the innermost scope, if there is one. -/
def leave (state : ReductionState) : ReductionState :=
  if state.table.depth = 0 then state
  else ⟨state.table.pop, .leaving state.table.depth :: state.trace⟩

/-- Records a declaration, in a scope opened for it if none is open. -/
def declare (state : ReductionState) (name : Lexeme) (binding : Binding) : ReductionState :=
  let ready := if state.table.depth = 0 then state.enter else state
  let table := ready.table.declare name binding
  ⟨table, .declared name.shown binding.text table.depth :: ready.trace⟩

end ReductionState

namespace Reduction

/-- The number of levels that a reduction goes down a tree, every node on the way counting as one. A
long chain of operations, which nests to the left, may pass it. -/
def depthLimit : Nat := 490

/-- Carries out a reduction in a scope of its own, which is closed also when it fails. -/
def inScope {α : Type} (body : Reduction α) : Reduction α := fun state =>
  match body state.enter with
  | .ok value after => .ok value after.leave
  | .error failure after => .error failure after.leave

/-- Stops with a semantic error. -/
def fail {α : Type} (error : SemanticError) : Reduction α := throw (.semantic error)

/-- Carries out an operation on numbers and traces it. -/
def compute (op : ArithOp) (left right : Number) : Reduction Tree := do
  match op.apply left right with
  | .ok result =>
    modify fun state =>
      { state with
        trace := .folded op.operation left.text right.text result.text :: state.trace }
    return result.tree
  | .error error => fail error

/-- An arithmetic operation on reduced operands. -/
def arith (strict : Bool) (op : ArithOp) (left right : Tree) : Reduction Tree :=
  match left.number?, right.number? with
  | some leftNumber, some rightNumber => compute op leftNumber rightNumber
  | some _, none =>
    if strict then fail (.irreducible op.operation right) else return .arith op left right
  | none, _ =>
    if strict then fail (.irreducible op.operation left) else return .arith op left right

/-- A change of sign of a reduced operand. -/
def negation (strict : Bool) (factor : Tree) : Reduction Tree :=
  match factor.number? with
  | some number => return number.negated.tree
  | none => if strict then fail (.irreducible "negation" factor) else return .negation factor

/-- Parentheses around a reduced expression. -/
def parenthesized (inner : Tree) : Tree :=
  if inner.isNumber then inner else .parenthesized inner

/-- A literal where a type is expected. -/
def literal (expected? : Option Tree) (lexeme : Lexeme) : Reduction Tree :=
  match resolveLexeme lexeme expected? with
  | .ok number => return number.tree
  | .error failure => throw failure

/-- Reduces a part of a tree that may be left out. -/
def ifPresent (body : Tree → Reduction Tree) (tree : Tree) : Reduction Tree :=
  if tree.isPresent then body tree else return .absent

/-- The reduction of a tree of at most the given number of levels, where a type is expected. -/
def reduce (strict : Bool) : Nat → Option Tree → Tree → Reduction Tree
  | 0, _, _ => fail .tooDeep
  | levels + 1, expected?, tree =>
    match tree with
    | .absent => throw .absentNode
    | .program statements => do
      return .program (← statements.mapM (reduce strict levels expected?))
    | .declaration keyword name type value => do
      let value ← reduce strict levels (some type) value
      modify (·.declare name ⟨keyword.isMutable, type, value⟩)
      return .declaration keyword name type value
    | .assignment name value => do
      let binding? := (← get).table.lookup? name
      let value ← reduce strict levels (binding?.map Binding.type) value
      return .assignment name value
    | .statement expression => do
      return .statement (← reduce strict levels none expression)
    | .arith op left right => do
      let left ← reduce strict levels expected? left
      let right ← reduce strict levels expected? right
      arith strict op left right
    | .comparison left op right => do
      let left ← reduce strict levels none left
      let right ← reduce strict levels none right
      return .comparison left op right
    | .call name arguments => do
      return .call name (← arguments.mapM (reduce strict levels none))
    | .block statements result =>
      inScope do
        let statements ← statements.mapM (reduce strict levels expected?)
        let result ← ifPresent (reduce strict levels expected?) result
        return .block statements result
    | .branch condition body => do
      let condition ← reduce strict levels none condition
      let body ← reduce strict levels expected? body
      return .branch condition body
    | .conditional condition body branches otherwise => do
      let condition ← reduce strict levels none condition
      let body ← reduce strict levels expected? body
      let branches ← branches.mapM (reduce strict levels expected?)
      let otherwise ← ifPresent (reduce strict levels expected?) otherwise
      return .conditional condition body branches otherwise
    | .negation factor => do
      negation strict (← reduce strict levels expected? factor)
    | .parenthesized expression => do
      return parenthesized (← reduce strict levels expected? expression)
    | .literal lexeme => literal expected? lexeme
    | .identifier name => return .identifier name
    | .integer value => return .integer value
    | .float value => return .float value
    | .basicType name => return .basicType name
    | .functionType parameters result => return .functionType parameters result
    | .parameter name type => return .parameter name type

end Reduction

/-! ### Whole programs, and sessions -/

/-- A reducer: its mode, the table of names, and the type that is expected at the top of the next
tree. -/
structure Reducer where
  strict : Bool := true
  table : Table := {}
  expected? : Option Tree := none

/-- What came of a reduction, and what happened in it, the latest event first. -/
structure ReductionOutcome where
  result : Except ReductionFailure Tree
  reducer : Reducer
  trace : List Event

namespace Reducer

/-- Reduces a tree over the names declared so far. -/
def visit (reducer : Reducer) (tree : Tree) : ReductionOutcome :=
  let reduction := Reduction.reduce reducer.strict Reduction.depthLimit reducer.expected? tree
  match reduction ⟨reducer.table, []⟩ with
  | .ok reduced state => ⟨.ok reduced, { reducer with table := state.table }, state.trace⟩
  | .error failure state => ⟨.error failure, { reducer with table := state.table }, state.trace⟩

/-- Reduces a tree from the start: without any names, and expecting nothing. -/
def validate (reducer : Reducer) (tree : Tree) : ReductionOutcome :=
  visit { strict := reducer.strict } tree

end Reducer

/-- Reduces a program in the given mode. -/
def validate (strict : Bool) (program : Tree) : ReductionOutcome :=
  Reducer.validate { strict := strict } program

end LetLang
