import LetLang.Token

/-!
# The vocabulary of trees

What a node of a parse tree can say besides the nodes below it: the keyword of a declaration, the
data types, the arithmetic operations and the comparison operators. All four are closed lists.
-/

set_option autoImplicit false

namespace LetLang

/-! ### Declarations -/

/-- The keyword that introduces a declaration. -/
inductive DeclKeyword
  | let_
  | mut_
  deriving DecidableEq, Inhabited

namespace DeclKeyword

/-- The text of a keyword. -/
def text : DeclKeyword → String
  | let_ => "let"
  | mut_ => "mut"

/-- The keyword with a given text. -/
def ofText? (text : String) : Option DeclKeyword :=
  if text = "let" then some let_ else if text = "mut" then some mut_ else none

/-- Whether a declaration with this keyword may be assigned to again. -/
def isMutable : DeclKeyword → Bool
  | let_ => false
  | mut_ => true

end DeclKeyword

/-! ### Data types -/

/-- The data types. -/
inductive DataType
  | int
  | float
  | number
  | unit
  deriving DecidableEq, Inhabited

namespace DataType

/-- The name of a data type. -/
def name : DataType → String
  | int => "int"
  | float => "float"
  | number => "number"
  | unit => "unit"

/-- The data type of a given name. -/
def ofName? (text : String) : Option DataType :=
  if text = "int" then some int
  else if text = "float" then some float
  else if text = "number" then some number
  else if text = "unit" then some unit
  else none

theorem ofName?_name (type : DataType) : ofName? type.name = some type := by
  cases type <;> rfl

end DataType

/-! ### Operations -/

/-- The arithmetic operations. -/
inductive ArithOp
  | sum
  | difference
  | product
  | quotient
  deriving DecidableEq, Inhabited

/-- The comparison operators. -/
inductive CompareOp
  | lessThan
  | greaterThan
  | lessEqual
  | greaterEqual
  | equal
  | notEqual
  deriving DecidableEq, Inhabited

namespace CompareOp

/-- The text of an operator. -/
def text : CompareOp → String
  | lessThan => "<"
  | greaterThan => ">"
  | lessEqual => "<="
  | greaterEqual => ">="
  | equal => "=="
  | notEqual => "!="

/-- All comparison operators. -/
def all : List CompareOp := [lessThan, greaterThan, lessEqual, greaterEqual, equal, notEqual]

/-- The operator with a given text. -/
def ofText? (text : String) : Option CompareOp := all.find? (·.text == text)

/-- The kind of token that an operator is written with. -/
def kind : CompareOp → TokenKind
  | lessThan => .lessThan
  | greaterThan => .greaterThan
  | lessEqual => .lessEqual
  | greaterEqual => .greaterEqual
  | equal => .equal
  | notEqual => .notEqual

/-- The operator of a kind of token. -/
def ofKind? : TokenKind → Option CompareOp
  | .lessThan => some lessThan
  | .greaterThan => some greaterThan
  | .lessEqual => some lessEqual
  | .greaterEqual => some greaterEqual
  | .equal => some equal
  | .notEqual => some notEqual
  | _ => none

theorem ofKind?_kind (op : CompareOp) : ofKind? op.kind = some op := by
  cases op <;> rfl

/-- Every kind of comparison has its operator, and no other kind has one. -/
theorem isSome_ofKind? (kind : TokenKind) : (ofKind? kind).isSome = kind.isComparison := by
  cases kind <;> rfl

end CompareOp

end LetLang
