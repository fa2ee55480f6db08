import LetLang.Number.Binary64
import LetLang.Syntax.Vocabulary

/-!
# Parse trees

One type holds the nodes of every tier, from programs to types, because a reduced or hand-made tree
may carry any node in any place; the parser builds only those that its grammar describes. A place
for a node may also be left empty (`Tree.absent`), as the place for the last expression of a block
or for the `else` of a conditional is when there is none.

A node has a class, which names it in a printed tree, and a kind, which names it in messages. Trees
are compared node by node (`Tree.agrees`).
-/

set_option autoImplicit false

namespace LetLang

/-- A parse tree. -/
inductive Tree
  /-- No node: the place for one is empty. -/
  | absent
  /-- The statements of a whole program. -/
  | program (statements : List Tree)
  /-- The introduction of a name with a type and a value. -/
  | declaration (keyword : DeclKeyword) (name : Lexeme) (type value : Tree)
  /-- The replacement of the value of a name. -/
  | assignment (name : Lexeme) (value : Tree)
  /-- An expression that stands as a statement. -/
  | statement (expression : Tree)
  /-- An arithmetic operation on two operands. -/
  | arith (op : ArithOp) (left right : Tree)
  /-- A comparison of two operands. -/
  | comparison (left : Tree) (op : CompareOp) (right : Tree)
  /-- A call of a function by its name. -/
  | call (name : Lexeme) (arguments : List Tree)
  /-- Statements in braces, with the expression that ends them, if there is one. -/
  | block (statements : List Tree) (result : Tree)
  /-- A condition and the block that it guards, as one `else if` of a conditional. -/
  | branch (condition body : Tree)
  /-- A conditional with its further branches and the block of its `else`, if there is one. -/
  | conditional (condition body : Tree) (branches : List Tree) (otherwise : Tree)
  /-- A factor with its sign changed. -/
  | negation (factor : Tree)
  /-- An expression in parentheses. -/
  | parenthesized (expression : Tree)
  /-- The use of a name. -/
  | identifier (name : Lexeme)
  /-- A number as its text. -/
  | literal (lexeme : Lexeme)
  /-- An integer. -/
  | integer (value : Int)
  /-- A double-precision number. -/
  | float (value : Binary64)
  /-- One of the data types. -/
  | basicType (name : DataType)
  /-- The type of a function, with its parameters and the type of its result. -/
  | functionType (parameters : List Tree) (result : Tree)
  /-- A parameter of a function type. -/
  | parameter (name : Lexeme) (type : Tree)
  deriving Inhabited

namespace Tree

/-! ### Names of nodes -/

/-- The class of an arithmetic node. -/
def arithClass : ArithOp → String
  | .sum => "Sum"
  | .difference => "Difference"
  | .product => "Product"
  | .quotient => "Quotient"

/-- The kind of an arithmetic node. -/
def arithKind : ArithOp → String
  | .sum => "sum"
  | .difference => "difference"
  | .product => "product"
  | .quotient => "quotient"

/-- The class of a node: its name in a printed tree. -/
def className : Tree → String
  | absent => "NoneType"
  | program _ => "Program"
  | declaration .. => "Declaration"
  | assignment .. => "Assignment"
  | statement _ => "ExpressionStatement"
  | arith op _ _ => arithClass op
  | comparison .. => "Comparison"
  | call .. => "FunctionCall"
  | block .. => "Block"
  | branch .. => "ConditionalBlock"
  | conditional .. => "If"
  | negation _ => "NegatedFactor"
  | parenthesized _ => "ParenthesizedExpression"
  | identifier _ => "Identifier"
  | literal _ => "NumberLiteral"
  | integer _ => "Integer"
  | float _ => "Float"
  | basicType _ => "BasicType"
  | functionType .. => "FuncType"
  | parameter .. => "Parameter"

/-- The kind of a node, in small letters with underscores. -/
def kind : Tree → String
  | absent => "absent"
  | program _ => "program"
  | declaration .. => "declaration"
  | assignment .. => "assignment"
  | statement _ => "expression_statement"
  | arith op _ _ => arithKind op
  | comparison .. => "comparison"
  | call .. => "function_call"
  | block .. => "block"
  | branch .. => "conditional_block"
  | conditional .. => "if"
  | negation _ => "negated_factor"
  | parenthesized _ => "parenthesized_expression"
  | identifier _ => "identifier"
  | literal _ => "number_literal"
  | integer _ => "integer"
  | float _ => "float"
  | basicType _ => "basic_type"
  | functionType .. => "func_type"
  | parameter .. => "parameter"

/-! ### Classes of nodes -/

/-- Whether there is a node. -/
def isPresent : Tree → Bool
  | absent => false
  | _ => true

/-- Whether a node is a type. -/
def isType : Tree → Bool
  | basicType _ => true
  | functionType .. => true
  | _ => false

/-- Whether a node is a number. -/
def isNumber : Tree → Bool
  | integer _ => true
  | float _ => true
  | _ => false

/-- Whether a node is an expression that ends itself with a brace. -/
def isBraced : Tree → Bool
  | block .. => true
  | conditional .. => true
  | _ => false

/-! ### Size -/

mutual

/-- The number of places for nodes in a tree, the empty ones included. -/
def size : Tree → Nat
  | program statements => 1 + sizes statements
  | declaration _ _ type value => 1 + size type + size value
  | assignment _ value => 1 + size value
  | statement expression => 1 + size expression
  | arith _ left right => 1 + size left + size right
  | comparison left _ right => 1 + size left + size right
  | call _ arguments => 1 + sizes arguments
  | block statements result => 1 + sizes statements + size result
  | branch condition body => 1 + size condition + size body
  | conditional condition body branches otherwise =>
    1 + size condition + size body + sizes branches + size otherwise
  | negation factor => 1 + size factor
  | parenthesized expression => 1 + size expression
  | functionType parameters result => 1 + sizes parameters + size result
  | parameter _ type => 1 + size type
  | _ => 1

/-- The number of places for nodes in several trees. -/
def sizes : List Tree → Nat
  | [] => 0
  | tree :: rest => size tree + sizes rest

end

/-! ### Structural comparison -/

mutual

/-- Whether two trees agree node by node, where numbers are compared as numbers: the two zeros
agree, and a nan agrees with nothing. -/
def agrees : Tree → Tree → Bool
  | absent, absent => true
  | program first, program second => listAgrees first second
  | declaration keyword name type value, declaration keyword' name' type' value' =>
    keyword == keyword' && name == name' && agrees type type' && agrees value value'
  | assignment name value, assignment name' value' => name == name' && agrees value value'
  | statement first, statement second => agrees first second
  | arith op left right, arith op' left' right' =>
    op == op' && agrees left left' && agrees right right'
  | comparison left op right, comparison left' op' right' =>
    op == op' && agrees left left' && agrees right right'
  | call name arguments, call name' arguments' =>
    name == name' && listAgrees arguments arguments'
  | block statements result, block statements' result' =>
    listAgrees statements statements' && agrees result result'
  | branch condition body, branch condition' body' =>
    agrees condition condition' && agrees body body'
  | conditional condition body branches otherwise,
      conditional condition' body' branches' otherwise' =>
    agrees condition condition' && agrees body body' && listAgrees branches branches'
      && agrees otherwise otherwise'
  | negation first, negation second => agrees first second
  | parenthesized first, parenthesized second => agrees first second
  | identifier first, identifier second => first == second
  | literal first, literal second => first == second
  | integer first, integer second => first == second
  | float first, float second => first.same second
  | basicType first, basicType second => first == second
  | functionType parameters result, functionType parameters' result' =>
    listAgrees parameters parameters' && agrees result result'
  | parameter name type, parameter name' type' => name == name' && agrees type type'
  | _, _ => false

/-- Whether two lists of trees agree one by one. -/
def listAgrees : List Tree → List Tree → Bool
  | [], [] => true
  | first :: firstRest, second :: secondRest =>
    agrees first second && listAgrees firstRest secondRest
  | _, _ => false

end

end Tree

end LetLang
