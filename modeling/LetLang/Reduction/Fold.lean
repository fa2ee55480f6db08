import LetLang.Reduction.Error

/-!
# Arithmetic on numbers

Arithmetic on numbers. Integers are added, subtracted, multiplied and divided towards zero, and the
result is wrapped to 64 bits; doubles follow IEEE 754. Numbers of different sorts have no result,
nor has the division of an integer by zero (`ArithOp.apply`).
-/

set_option autoImplicit false

namespace LetLang

namespace ArithOp

/-- What an operation is called in messages. -/
def operation : ArithOp → String
  | sum => "addition"
  | difference => "subtraction"
  | product => "multiplication"
  | quotient => "division"

/-- The result of an operation on integers, before it is wrapped. -/
def onIntegers (left right : Int) : ArithOp → Int
  | sum => left + right
  | difference => left - right
  | product => left * right
  | quotient => left.tdiv right

/-- The result of an operation on doubles. -/
def onDoubles (left right : Binary64) : ArithOp → Binary64
  | sum => left.add right
  | difference => left.sub right
  | product => left.mul right
  | quotient => left.div right

/-- The result of an operation. -/
def apply (op : ArithOp) : Number → Number → Except SemanticError Number
  | .int left, .int right =>
    if op = quotient ∧ right = 0 then .error .divisionByZero
    else .ok (.int (wrapInt64 (op.onIntegers left right)))
  | .float left, .float right => .ok (.float (op.onDoubles left right))
  | left, right => .error (.mismatched op.operation left right)

end ArithOp

/-- A number with its sign changed, an integer within 64 bits. -/
def Number.negated : Number → Number
  | int value => .int (wrapInt64 (-value))
  | float value => .float value.neg

end LetLang
