import LetLang.Proofs.Meaning.Failures
import LetLang.Proofs.Meaning.NormalForm

/-!
# The expected type decides what numbers are

Where `int` or `float` is expected of an expression, the numbers that it is reduced to are of that
type. This concerns the numbers in value position: the expression itself, operands, and the last
expressions of blocks and of the branches of conditionals (`Tree.valueNumbers`). What is declared or
assigned on the way, with whatever types, does not matter, and neither do conditions, comparisons and
arguments, of which nothing is expected (`visit_expecting`).

So two numbers that meet in an operation are of one type there, if both come from literals. An
expression of literals alone is reduced to a number of the expected type or fails, but never because
types are mixed (`Uniform`).
-/

set_option autoImplicit false

namespace LetLang

open Run (Returns)

/-! ### Numbers in value position -/

/-- The data type of a number. -/
def Number.dataType : Number → DataType
  | int _ => .int
  | float _ => .float

mutual

/-- The numbers in value position of an expression: the expression if it is one, and those of
operands, of the content of parentheses, of the last expression of a block, and of the blocks of a
conditional. -/
def Tree.valueNumbers : Tree → List Number
  | .integer value => [.int value]
  | .float value => [.float value]
  | .arith _ left right => left.valueNumbers ++ right.valueNumbers
  | .negation factor => factor.valueNumbers
  | .parenthesized expression => expression.valueNumbers
  | .block _ result => result.valueNumbers
  | .branch _ body => body.valueNumbers
  | .conditional _ body branches otherwise =>
    body.valueNumbers ++ (Tree.branchNumbers branches ++ otherwise.valueNumbers)
  | _ => []

/-- The numbers in value position of several branches. -/
def Tree.branchNumbers : List Tree → List Number
  | [] => []
  | first :: rest => first.valueNumbers ++ Tree.branchNumbers rest

end

theorem Tree.mem_branchNumbers {number : Number} {branches : List Tree} :
    number ∈ Tree.branchNumbers branches ↔ ∃ branch ∈ branches, number ∈ branch.valueNumbers := by
  induction branches with
  | nil => simp [Tree.branchNumbers]
  | cons first rest ih => simp [Tree.branchNumbers, ih]

theorem Number.valueNumbers_tree (number : Number) : number.tree.valueNumbers = [number] := by
  cases number <;> rfl

/-- All numbers in value position are of a type. -/
def Tree.Yields (data : DataType) (tree : Tree) : Prop :=
  ∀ number ∈ tree.valueNumbers, number.dataType = data

theorem Tree.yields_number {data : DataType} {number : Number} :
    number.tree.Yields data ↔ number.dataType = data := by
  rw [Tree.Yields, number.valueNumbers_tree, List.forall_mem_singleton]

/-- Whether an expression consists of literals, parentheses, signs and operations. -/
def Tree.isLiteralArithmetic : Tree → Bool
  | literal _ => true
  | parenthesized expression => expression.isLiteralArithmetic
  | negation factor => factor.isLiteralArithmetic
  | arith _ left right => left.isLiteralArithmetic && right.isLiteralArithmetic
  | _ => false

/-! ### Arithmetic keeps the type -/

theorem ArithOp.dataType_of_apply {op : ArithOp} {left right result : Number}
    (happly : op.apply left right = .ok result) : result.dataType = left.dataType := by
  cases left with
  | int left =>
    cases right with
    | int right =>
      simp only [ArithOp.apply] at happly
      split at happly
      · cases happly
      · cases happly
        rfl
    | float right => cases happly
  | float left =>
    cases right with
    | int right => cases happly
    | float right =>
      cases happly
      rfl

/-- An operation has no result because of a division by zero, or on numbers of different types. -/
theorem ArithOp.error_of_apply {op : ArithOp} {left right : Number} {error : SemanticError}
    (happly : op.apply left right = .error error) :
    error = .divisionByZero ∨ left.dataType ≠ right.dataType := by
  cases left with
  | int left =>
    cases right with
    | int right =>
      simp only [ArithOp.apply] at happly
      split at happly
      · cases happly
        exact .inl rfl
      · cases happly
    | float right => exact .inr (by simp [Number.dataType])
  | float left =>
    cases right with
    | int right => exact .inr (by simp [Number.dataType])
    | float right => cases happly

theorem Number.number?_tree (number : Number) : number.tree.number? = some number := by
  cases number <;> rfl

theorem Number.dataType_negated (number : Number) : number.negated.dataType = number.dataType := by
  cases number <;> rfl

/-- A literal is read as a number of the expected type. -/
theorem dataType_of_resolveLexeme {data : DataType} (hdata : data = .int ∨ data = .float)
    {lexeme : Lexeme} {number : Number}
    (hnumber : resolveLexeme lexeme (some (.basicType data)) = .ok number) :
    number.dataType = data := by
  cases lexeme with
  | none => cases hnumber
  | some text =>
    have hexpected : expectedData? (some (.basicType data)) = some data := rfl
    simp only [resolveLexeme, resolveLiteral, hexpected] at hnumber
    split at hnumber
    · cases hnumber
    rcases hdata with rfl | rfl
    · rw [if_neg (by decide)] at hnumber
      split at hnumber
      · rw [resolveInteger] at hnumber
        split_ifs at hnumber
        cases hnumber
        rfl
      · rw [if_pos rfl] at hnumber
        cases hnumber
    · rw [if_pos rfl] at hnumber
      cases hnumber
      rfl

/-! ### Reductions where a type is expected -/

section

variable {data : DataType} {strict : Bool} {left right factor : Tree}

theorem yields_compute {op : ArithOp} {first second : Number} (hfirst : first.dataType = data) :
    Returns (Tree.Yields data) (Reduction.compute op first second) := by
  intro before reduced after hrun
  unfold Reduction.compute at hrun
  cases hresult : op.apply first second with
  | ok result =>
    rw [hresult] at hrun
    cases hrun
    exact Tree.yields_number.mpr ((ArithOp.dataType_of_apply hresult).trans hfirst)
  | error error =>
    rw [hresult] at hrun
    cases hrun

theorem yields_arith {op : ArithOp} (hleft : left.Yields data) (hright : right.Yields data) :
    Returns (Tree.Yields data) (Reduction.arith strict op left right) := by
  rcases Reduction.arith_cases strict op left right with
    ⟨first, second, rfl, rfl, hcompute⟩ | ⟨-, operand, hkept⟩
  · rw [hcompute]
    exact yields_compute (Tree.yields_number.mp hleft)
  · rw [hkept]
    split
    · exact .throw _
    · exact .pure (List.forall_mem_append.mpr ⟨hleft, hright⟩)

theorem yields_negation (hfactor : factor.Yields data) :
    Returns (Tree.Yields data) (Reduction.negation strict factor) := by
  rcases Reduction.negation_cases strict factor with ⟨number, rfl, hnegated⟩ | ⟨-, hkept⟩
  · rw [hnegated]
    refine .pure (Tree.yields_number.mpr ?_)
    rw [number.dataType_negated, Tree.yields_number.mp hfactor]
  · rw [hkept]
    split
    · exact .throw _
    · exact .pure hfactor

theorem yields_parenthesized (hfactor : factor.Yields data) :
    (Reduction.parenthesized factor).Yields data := by
  unfold Reduction.parenthesized
  split
  · exact hfactor
  · exact hfactor

theorem yields_literal (hdata : data = .int ∨ data = .float) (lexeme : Lexeme) :
    Returns (Tree.Yields data) (Reduction.literal (some (.basicType data)) lexeme) := by
  unfold Reduction.literal
  split
  · next number hnumber =>
    exact .pure (Tree.yields_number.mpr (dataType_of_resolveLexeme hdata hnumber))
  · exact .throw _

end

theorem returns_inScope {property : Tree → Prop} {body : Reduction Tree}
    (hbody : Returns property body) : Returns property (Reduction.inScope body) := by
  intro before reduced after hrun
  obtain ⟨middle, hvalue, -⟩ := Reduction.exists_of_inScope_eq_ok hrun
  exact hbody _ _ _ hvalue

/-- What has no numbers in value position is reduced to something whose numbers in value position
are of the expected type. The induction is on the levels that the reduction may go down. -/
theorem yields_reduce (strict : Bool) {data : DataType} (hdata : data = .int ∨ data = .float)
    (levels : Nat) : ∀ {tree : Tree}, tree.valueNumbers = [] →
      Returns (Tree.Yields data) (Reduction.reduce strict levels (some (.basicType data)) tree) := by
  -- Nodes of other classes than these have no value position below them.
  have hnone : ∀ {tree : Tree}, tree.valueNumbers = [] → tree.Yields data := by
    intro tree htree
    rw [Tree.Yields, htree]
    exact List.forall_mem_nil _
  induction levels with
  | zero => exact fun _ ↦ .throw _
  | succ levels ih =>
    intro tree htree
    have hoptional : ∀ {tree : Tree}, tree.valueNumbers = [] → Returns (Tree.Yields data)
        (Reduction.ifPresent (Reduction.reduce strict levels (some (.basicType data))) tree) := by
      intro tree htree
      unfold Reduction.ifPresent
      split
      · exact ih htree
      · exact .pure (hnone rfl)
    cases tree with
    | absent => exact .throw _
    | program statements => exact .bind fun _ ↦ .pure (hnone rfl)
    | declaration keyword name type value => exact .bind fun _ ↦ .bind fun _ ↦ .pure (hnone rfl)
    | assignment name value => exact .bind fun _ ↦ .bind fun _ ↦ .pure (hnone rfl)
    | statement expression => exact .bind fun _ ↦ .pure (hnone rfl)
    | comparison left op right => exact .bind fun _ ↦ .bind fun _ ↦ .pure (hnone rfl)
    | call name arguments => exact .bind fun _ ↦ .pure (hnone rfl)
    | arith op left right =>
      obtain ⟨hleft, hright⟩ := List.append_eq_nil_iff.mp htree
      refine (ih hleft).andThen fun left hleft ↦ (ih hright).andThen fun right hright ↦ ?_
      exact yields_arith hleft hright
    | block statements result =>
      have hresult : result.valueNumbers = [] := htree
      refine returns_inScope (.bind fun statements ↦ ?_)
      exact (hoptional hresult).andThen fun result hresult ↦ .pure hresult
    | branch condition body =>
      have hbody : body.valueNumbers = [] := htree
      exact .bind fun condition ↦ (ih hbody).andThen fun body hbody ↦ .pure hbody
    | conditional condition body branches otherwise =>
      obtain ⟨hbody, hrest⟩ := List.append_eq_nil_iff.mp htree
      obtain ⟨hbranches, hotherwise⟩ := List.append_eq_nil_iff.mp hrest
      have hbranch : ∀ branch ∈ branches, branch.valueNumbers = [] := by
        intro branch hmem
        refine List.eq_nil_iff_forall_not_mem.mpr fun number hnumber ↦ ?_
        have hfound := Tree.mem_branchNumbers.mpr ⟨branch, hmem, hnumber⟩
        rw [hbranches] at hfound
        cases hfound
      refine .bind fun condition ↦ (ih hbody).andThen fun body hbody ↦ ?_
      refine (Returns.mapM fun branch hmem ↦ ih (hbranch branch hmem)).andThen
        fun branches hbranches ↦ ?_
      refine (hoptional hotherwise).andThen fun otherwise hotherwise ↦ .pure ?_
      refine List.forall_mem_append.mpr ⟨hbody, List.forall_mem_append.mpr ⟨?_, hotherwise⟩⟩
      intro number hnumber
      obtain ⟨branch, hmem, hvalue⟩ := Tree.mem_branchNumbers.mp hnumber
      exact hbranches branch hmem number hvalue
    | negation factor =>
      have hfactor : factor.valueNumbers = [] := htree
      exact (ih hfactor).andThen fun factor hfactor ↦ yields_negation hfactor
    | parenthesized expression =>
      have hinner : expression.valueNumbers = [] := htree
      exact (ih hinner).andThen fun inner hinner ↦ .pure (yields_parenthesized hinner)
    | literal lexeme => exact yields_literal hdata lexeme
    | integer | float => cases htree
    | identifier | basicType | functionType | parameter => exact .pure (hnone rfl)

/-! ### Literals alone -/

/-- The failure is not that types are mixed. -/
def Unmixed (failure : ReductionFailure) : Prop :=
  ∀ error, failure = .semantic error → error.code ≠ "S003"

theorem unmixed_invalidLiteral (lexeme typeName : String) (fault : LiteralFault) :
    Unmixed (.semantic (.invalidLiteral lexeme typeName fault)) := by
  intro error herror
  cases herror
  exact (by decide : "S001" ≠ "S003")

theorem unmixed_of_resolveLexeme {lexeme : Lexeme} {expected? : Option Tree}
    {failure : ReductionFailure} (hfailure : resolveLexeme lexeme expected? = .error failure) :
    Unmixed failure := by
  cases lexeme with
  | none =>
    cases hfailure
    intro error herror
    cases herror
  | some text =>
    simp only [resolveLexeme, resolveLiteral] at hfailure
    split at hfailure
    · cases hfailure
      exact unmixed_invalidLiteral _ _ _
    split at hfailure
    · cases hfailure
    split at hfailure
    · rw [resolveInteger] at hfailure
      split_ifs at hfailure
      · cases hfailure
        exact unmixed_invalidLiteral _ _ _
      · cases hfailure
        intro error herror
        cases herror
      · cases hfailure
        exact unmixed_invalidLiteral _ _ _
    · split at hfailure
      · cases hfailure
        exact unmixed_invalidLiteral _ _ _
      · cases hfailure

/-- The reduction returns a number of the type, or it fails for another reason than that types are
mixed. -/
structure Uniform (data : DataType) (reduction : Reduction Tree) : Prop where
  returned : Returns (fun reduced ↦ ∃ number : Number, reduced = number.tree ∧ number.dataType = data)
    reduction
  failed : FailsOnly Unmixed reduction

namespace Uniform

variable {data : DataType}

theorem pure {number : Number} (hnumber : number.dataType = data) :
    Uniform data (Pure.pure number.tree) :=
  ⟨.pure ⟨number, rfl, hnumber⟩, .pure _⟩

theorem throw {failure : ReductionFailure} (hfailure : Unmixed failure) :
    Uniform data (throwThe ReductionFailure failure) :=
  ⟨.throw _, .throw hfailure⟩

theorem bind {first : Reduction Tree} {next : Tree → Reduction Tree} (hfirst : Uniform data first)
    (hnext : ∀ number : Number, number.dataType = data → Uniform data (next number.tree)) :
    Uniform data (first >>= next) := by
  constructor
  · refine hfirst.returned.andThen fun reduced hreduced ↦ ?_
    obtain ⟨number, rfl, hnumber⟩ := hreduced
    exact (hnext number hnumber).returned
  · intro before failure after hrun
    rcases Run.of_bind_eq_error hrun with hstop | ⟨reduced, middle, hreduced, hlast⟩
    · exact hfirst.failed before failure after hstop
    · obtain ⟨number, rfl, hnumber⟩ := hfirst.returned before reduced middle hreduced
      exact (hnext number hnumber).failed middle failure after hlast

/-- Numbers of one type have a result of that type, unless one is divided by zero. -/
theorem compute {op : ArithOp} {left right : Number} (hleft : left.dataType = data)
    (hright : right.dataType = data) : Uniform data (Reduction.compute op left right) := by
  unfold Reduction.compute
  cases hresult : op.apply left right with
  | ok result =>
    constructor
    · intro before reduced after hrun
      cases hrun
      exact ⟨result, rfl, (ArithOp.dataType_of_apply hresult).trans hleft⟩
    · intro before failure after hrun
      cases hrun
  | error error =>
    refine .throw fun found hfound ↦ ?_
    cases hfound
    rcases ArithOp.error_of_apply hresult with rfl | hmixed
    · decide
    · exact absurd (hleft.trans hright.symm) hmixed

theorem literal (hdata : data = .int ∨ data = .float) (lexeme : Lexeme) :
    Uniform data (Reduction.literal (some (.basicType data)) lexeme) := by
  unfold Reduction.literal
  split
  · next number hnumber => exact .pure (dataType_of_resolveLexeme hdata hnumber)
  · next failure hfailure => exact .throw (unmixed_of_resolveLexeme hfailure)

end Uniform

theorem uniform_reduce (strict : Bool) {data : DataType} (hdata : data = .int ∨ data = .float)
    (levels : Nat) : ∀ {tree : Tree}, tree.isLiteralArithmetic = true →
      Uniform data (Reduction.reduce strict levels (some (.basicType data)) tree) := by
  induction levels with
  | zero => exact fun _ ↦ .throw fun error herror ↦ by cases herror; decide
  | succ levels ih =>
    intro tree htree
    cases tree with
    | literal lexeme => exact .literal hdata lexeme
    | parenthesized expression =>
      have hinner : expression.isLiteralArithmetic = true := htree
      refine (ih hinner).bind fun number hnumber ↦ ?_
      have hkept : Reduction.parenthesized number.tree = number.tree := by cases number <;> rfl
      rw [hkept]
      exact .pure hnumber
    | negation factor =>
      have hfactor : factor.isLiteralArithmetic = true := htree
      refine (ih hfactor).bind fun number hnumber ↦ ?_
      rw [Reduction.negation, number.number?_tree]
      exact .pure (number.dataType_negated.trans hnumber)
    | arith op left right =>
      obtain ⟨hleft, hright⟩ := Bool.and_eq_true_iff.mp htree
      refine (ih hleft).bind fun leftNumber hleft ↦ (ih hright).bind fun rightNumber hright ↦ ?_
      rw [Reduction.arith, leftNumber.number?_tree, rightNumber.number?_tree]
      exact .compute hleft hright
    | _ => cases htree

/-! ### Visits of a reducer -/

/-- A reducer that expects `int` or `float` reduces an expression without numbers in value position to
one whose numbers in value position are all of that type; and for an expression of literals alone it
never fails because types are mixed. -/
theorem visit_expecting {reducer : Reducer} {data : DataType} (hdata : data = .int ∨ data = .float)
    (hexpected : reducer.expected? = some (.basicType data)) (tree : Tree) :
    (tree.valueNumbers = [] → ∀ reduced, (reducer.visit tree).result = .ok reduced →
      ∀ number ∈ reduced.valueNumbers, number.dataType = data) ∧
    (tree.isLiteralArithmetic = true → ∀ error,
      (reducer.visit tree).result = .error (.semantic error) → error.code ≠ "S003") := by
  cases hrun : Reduction.reduce reducer.strict Reduction.depthLimit reducer.expected? tree
      ⟨reducer.table, []⟩ with
  | ok found after =>
    rw [reducer.visit_of_ok hrun]
    rw [hexpected] at hrun
    constructor
    · intro hnumbers reduced hreduced
      cases hreduced
      exact yields_reduce reducer.strict hdata _ hnumbers _ _ _ hrun
    · intro _ error herror
      cases herror
  | error failure after =>
    rw [reducer.visit_of_error hrun]
    rw [hexpected] at hrun
    constructor
    · intro _ reduced hreduced
      cases hreduced
    · intro hliteral error herror
      cases herror
      exact (uniform_reduce reducer.strict hdata _ hliteral).failed _ _ _ hrun error rfl

/-- The expression `if c < 1 {let y: float = x; -3} else if c {y} else {x * (5)}`. -/
def branchedExpression : Tree :=
  .conditional (.comparison (.identifier (some "c")) .lessThan (.literal (some "1")))
    (.block [.declaration .let_ (some "y") (.basicType .float) (.identifier (some "x"))]
      (.negation (.literal (some "3"))))
    [.branch (.identifier (some "c")) (.block [] (.identifier (some "y")))]
    (.block [] (.arith .product (.identifier (some "x")) (.parenthesized (.literal (some "5")))))

/-- The reduced expression where `int` is expected. -/
def branchedReduced : Tree :=
  .conditional (.comparison (.identifier (some "c")) .lessThan (.integer 1))
    (.block [.declaration .let_ (some "y") (.basicType .float) (.identifier (some "x"))]
      (.integer (-3)))
    [.branch (.identifier (some "c")) (.block [] (.identifier (some "y")))]
    (.block [] (.arith .product (.identifier (some "x")) (.integer 5)))

/-- In both blocks that end with numbers these are integers, although a `float` was declared before
the first one; and where a fraction is added to an integer, the types are not what is to blame. -/
theorem visit_expecting_int :
    (Reducer.visit { strict := false, expected? := some (.basicType .int) }
        branchedExpression).result = .ok branchedReduced ∧
      branchedReduced.valueNumbers = [.int (-3), .int 5] ∧
      (∀ number ∈ branchedReduced.valueNumbers, number.dataType = .int) ∧
      ∀ error, (Reducer.visit { expected? := some (.basicType .int) }
        (.arith .sum (.literal (some "1")) (.literal (some "2.5")))).result =
          .error (.semantic error) → error.code ≠ "S003" := by
  have hreduced : (Reducer.visit { strict := false, expected? := some (.basicType .int) }
      branchedExpression).result = .ok branchedReduced := rfl
  refine ⟨hreduced, rfl, ?_, ?_⟩
  · exact (visit_expecting (.inl rfl) rfl branchedExpression).1 rfl _ hreduced
  · exact (visit_expecting (.inl rfl) rfl _).2 rfl

end LetLang
