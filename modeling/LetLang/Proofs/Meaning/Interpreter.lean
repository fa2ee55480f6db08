import LetLang.Reduction.Fold
import LetLang.Reduction.Literal

/-!
# What straight-line programs mean

A reference interpreter for programs that consist of declarations, assignments and expressions with
arithmetic on numbers and names. It keeps the variables, the latest declaration first, so that a
declaration hides an earlier one of the same name and its value is computed before it exists. Every
statement has one effect: it stores a value, or it computes one (`Effect`). A program stops at the
first name that is not declared, at the first operation on numbers of different sorts and at the
first division of an integer by zero (`Fault`).

Integers are 64-bit ones: every result is brought back into their range as two's complement does
(`Int.bmod`), and division drops the fraction. The operations on doubles are a parameter
(`DoubleOps`), of which nothing is assumed.
-/

set_option autoImplicit false

namespace LetLang

/-! ### Values -/

/-- Why a program stops. -/
inductive Fault
  /-- A name is used or assigned to that is not declared. -/
  | unknownName
  /-- The operands of an operation are numbers of different sorts. -/
  | mixed
  /-- An integer is divided by zero. -/
  | divisionByZero
  /-- A literal has no number under the type that its place expects. -/
  | badLiteral
  /-- The program is not a straight-line one. -/
  | unsupported
  deriving DecidableEq

/-- The operations on doubles. -/
structure DoubleOps where
  arith : ArithOp → Binary64 → Binary64 → Binary64
  negate : Binary64 → Binary64

/-- The operations on doubles that reduction computes with. -/
def DoubleOps.binary64 : DoubleOps := ⟨fun op left right => op.onDoubles left right, Binary64.neg⟩

variable (doubles : DoubleOps)

/-- The result of an operation on two numbers. -/
def ArithOp.meaning (op : ArithOp) : Number → Number → Except Fault Number
  | .int left, .int right =>
    if op = quotient ∧ right = 0 then .error .divisionByZero
    else .ok (.int ((op.onIntegers left right).bmod 0x10000000000000000))
  | .float left, .float right => .ok (.float (doubles.arith op left right))
  | _, _ => .error .mixed

/-- A number with its sign changed. -/
def Number.opposite : Number → Number
  | int value => .int ((-value).bmod 0x10000000000000000)
  | float value => .float (doubles.negate value)

/-! ### Variables -/

/-- Looking a name up among pairs of a name and what belongs to it. -/
theorem lookup_cons_eq_ite {α : Type} (name other : Lexeme) (first : α) (rest : List (Lexeme × α)) :
    List.lookup other ((name, first) :: rest) =
      if other = name then some first else rest.lookup other := by
  rw [List.lookup_cons]
  by_cases hother : other = name
  · simp [hother]
  · have hne : (other == name) = false := by simpa using hother
    rw [hne, if_neg hother]

/-- A declared name with the type of its declaration and its present value. -/
structure Variable where
  name : Lexeme
  type : Tree
  value : Number

/-- The variables, the latest first. -/
abbrev Environment := List Variable

namespace Environment

/-- The variable that a name means: the latest of the name. -/
def lookup? (environment : Environment) (name : Lexeme) : Option Variable :=
  environment.find? (·.name == name)

/-- The variables after the one that a name means was given a value. -/
def assign (name : Lexeme) (value : Number) : Environment → Environment
  | [] => []
  | found :: others =>
    if found.name = name then { found with value := value } :: others
    else found :: assign name value others

theorem lookup?_cons (first : Variable) (others : Environment) (name : Lexeme) :
    lookup? (first :: others) name =
      if first.name = name then some first else lookup? others name := by
  unfold lookup?
  rw [List.find?_cons]
  by_cases hname : first.name = name
  · simp [hname]
  · have hne : (first.name == name) = false := by simpa using hname
    simp [hne, hname]

/-- An assignment changes the value of the variable that its name means, and nothing else. -/
theorem lookup?_assign (name other : Lexeme) (value : Number) (environment : Environment) :
    (environment.assign name value).lookup? other =
      if other = name then (environment.lookup? name).map fun found ↦ { found with value := value }
      else environment.lookup? other := by
  induction environment with
  | nil =>
    split
    · rfl
    · rfl
  | cons first others ih =>
    rw [assign]
    by_cases hfirst : first.name = name
    · rw [if_pos hfirst, lookup?_cons, lookup?_cons, lookup?_cons, if_pos hfirst]
      simp only [hfirst]
      by_cases hname : name = other
      · subst hname
        simp [hfirst]
      · rw [if_neg hname, if_neg (Ne.symm hname), if_neg hname]
    · rw [if_neg hfirst, lookup?_cons, lookup?_cons, lookup?_cons, ih, if_neg hfirst]
      by_cases hname : first.name = other
      · subst hname
        rw [if_pos rfl, if_pos rfl, if_neg hfirst]
      · rw [if_neg hname, if_neg hname]

end Environment

/-! ### Expressions -/

/-- The value of an expression where a type is expected of its literals. -/
def evaluate (environment : Environment) (expected? : Option Tree) : Tree → Except Fault Number
  | .integer value => .ok (.int value)
  | .float value => .ok (.float value)
  | .literal lexeme =>
    match resolveLexeme lexeme expected? with
    | .ok number => .ok number
    | .error _ => .error .badLiteral
  | .identifier name =>
    match environment.lookup? name with
    | some found => .ok found.value
    | none => .error .unknownName
  | .parenthesized expression => evaluate environment expected? expression
  | .negation factor => do
    let number ← evaluate environment expected? factor
    return number.opposite doubles
  | .arith op left right => do
    let leftNumber ← evaluate environment expected? left
    let rightNumber ← evaluate environment expected? right
    op.meaning doubles leftNumber rightNumber
  | _ => .error .unsupported

/-! ### Statements and programs -/

/-- What a statement does. -/
inductive Effect
  /-- A variable gets a value. -/
  | stored (name : Lexeme) (value : Number)
  /-- An expression that is a statement has a value. -/
  | computed (value : Number)
  deriving DecidableEq

/-- Carries out a statement. -/
def execute (environment : Environment) : Tree → Except Fault (Environment × Effect)
  | .declaration _ name type value => do
    let number ← evaluate doubles environment (some type) value
    return (⟨name, type, number⟩ :: environment, .stored name number)
  | .assignment name value => do
    let found? := environment.lookup? name
    let number ← evaluate doubles environment (found?.map Variable.type) value
    if found?.isSome then return (environment.assign name number, .stored name number)
    else throw .unknownName
  | .statement expression => do
    let number ← evaluate doubles environment none expression
    return (environment, .computed number)
  | _ => .error .unsupported

/-- What came of a run: the effects of the statements that were carried out, in order, and why the
one after them was not, if there was one. -/
structure RunOutcome where
  effects : List Effect
  fault? : Option Fault
  deriving DecidableEq

/-- Carries out statements one after the other up to the first that cannot be. -/
def runStatements (environment : Environment) : List Tree → RunOutcome
  | [] => ⟨[], none⟩
  | statement :: rest =>
    match execute doubles environment statement with
    | .ok (after, effect) =>
      let outcome := runStatements after rest
      ⟨effect :: outcome.effects, outcome.fault?⟩
    | .error fault => ⟨[], some fault⟩

/-- Carries out a program. -/
def interpret : Tree → RunOutcome
  | .program statements => runStatements doubles [] statements
  | _ => ⟨[], some .unsupported⟩

/-! ### Answers -/

/-- The integer that a statement computes, if it computes one. -/
def Effect.integer? : Effect → Option Int
  | computed (.int value) => some value
  | _ => none

/-- The last integer that a statement computed, and zero if there is none. -/
def answer (effects : List Effect) : Int := (effects.filterMap Effect.integer?).getLast?.getD 0

theorem answer_concat (effects : List Effect) (effect : Effect) :
    answer (effects ++ [effect]) = effect.integer?.getD (answer effects) := by
  unfold answer
  cases hinteger : effect.integer? with
  | none => simp [hinteger]
  | some value => simp [hinteger]

/-! ### What was stored last -/

/-- The value that a statement stores under a name, if it stores one. -/
def Effect.storedAs? (name : Lexeme) : Effect → Option Number
  | stored other value => if other = name then some value else none
  | computed _ => none

/-- The last value that was stored under a name. -/
def lastStored? (name : Lexeme) (effects : List Effect) : Option Number :=
  (effects.filterMap (Effect.storedAs? name)).getLast?

theorem lastStored?_concat (name : Lexeme) (effects : List Effect) (effect : Effect) :
    lastStored? name (effects ++ [effect]) =
      (effect.storedAs? name).or (lastStored? name effects) := by
  unfold lastStored?
  cases hstored : effect.storedAs? name with
  | none => simp [hstored]
  | some value => simp [hstored]

/-- Whether every variable has the value that was last stored under its name. -/
def Recalls (environment : Environment) (effects : List Effect) : Prop :=
  ∀ name found, environment.lookup? name = some found →
    lastStored? name effects = some found.value

theorem recalls_nil : Recalls [] [] := fun _ _ hfound ↦ by cases hfound

/-- Every statement keeps it so. -/
theorem Recalls.execute {environment later : Environment} {effects : List Effect} {effect : Effect}
    {statement : Tree} (hrecalls : Recalls environment effects)
    (hexecute : execute doubles environment statement = .ok (later, effect)) :
    Recalls later (effects ++ [effect]) := by
  intro other found hfound
  rw [lastStored?_concat]
  cases statement with
  | declaration keyword name type value =>
    rw [LetLang.execute] at hexecute
    cases hnumber : evaluate doubles environment (some type) value with
    | error fault =>
      rw [hnumber] at hexecute
      cases hexecute
    | ok number =>
      rw [hnumber] at hexecute
      cases hexecute
      rw [Environment.lookup?_cons] at hfound
      by_cases hname : name = other
      · rw [if_pos hname] at hfound
        cases hfound
        simp [Effect.storedAs?, hname]
      · rw [if_neg hname] at hfound
        simpa [Effect.storedAs?, hname] using hrecalls other found hfound
  | assignment name value =>
    rw [LetLang.execute] at hexecute
    cases hnumber : evaluate doubles environment
        ((environment.lookup? name).map Variable.type) value with
    | error fault =>
      rw [hnumber] at hexecute
      cases hexecute
    | ok number =>
      cases hold : environment.lookup? name with
      | none =>
        rw [hnumber, hold] at hexecute
        cases hexecute
      | some old =>
        rw [hnumber, hold] at hexecute
        cases hexecute
        rw [Environment.lookup?_assign] at hfound
        by_cases hname : other = name
        · rw [if_pos hname, hold] at hfound
          cases hfound
          simp [Effect.storedAs?, hname]
        · rw [if_neg hname] at hfound
          simpa [Effect.storedAs?, Ne.symm hname] using hrecalls other found hfound
  | statement expression =>
    rw [LetLang.execute] at hexecute
    cases hnumber : evaluate doubles environment none expression with
    | error fault =>
      rw [hnumber] at hexecute
      cases hexecute
    | ok number =>
      rw [hnumber] at hexecute
      cases hexecute
      exact hrecalls other found hfound
  | _ => cases hexecute

/-! ### Straight-line programs -/

/-- Whether an expression is arithmetic on numbers and names. -/
def Tree.isArithmetic : Tree → Bool
  | literal _ | integer _ | float _ | identifier _ => true
  | parenthesized expression => expression.isArithmetic
  | negation factor => factor.isArithmetic
  | arith _ left right => left.isArithmetic && right.isArithmetic
  | _ => false

/-- Whether a statement is a declaration, an assignment or an expression, with arithmetic. -/
def Tree.isStraight : Tree → Bool
  | declaration _ _ _ value => value.isArithmetic
  | assignment _ value => value.isArithmetic
  | statement expression => expression.isArithmetic
  | _ => false

/-- Whether a program consists of such statements. -/
def Tree.isStraightLine : Tree → Bool
  | program statements => statements.all isStraight
  | _ => false

end LetLang
