import LetLang.Number.Shortest
import LetLang.Syntax.Tree
import LetLang.Text.Quoted

/-!
# The fields of nodes

A node seen as a record: its fields in order, each with a label and a value (`Tree.fields`). The
nodes directly below it are those that its fields hold (`Tree.children`).

A node has two texts of one line. Types and parameters have the text they would have in a source,
`(a: int) -> float` (`Tree.inline`); every other node is spelled out as a record, class, labels and
all, `Sum(augend=Identifier(name='a'), addend=Integer(value=1))` (`Tree.spelled`), which is also how
types are spelled inside it.
-/

set_option autoImplicit false

namespace LetLang

/-- What a field of a node holds. -/
inductive FieldValue
  /-- A place for one node. -/
  | node (tree : Tree)
  /-- A row of places for nodes. -/
  | nodes (trees : List Tree)
  /-- A text of the source. -/
  | lexeme (text : Lexeme)
  /-- A number, given by its text. -/
  | number (text : String)
  /-- One member of a closed list, with the names of the list and the member, and its text. -/
  | choice (family member text : String)

/-- A labelled field. -/
structure Field where
  label : String
  value : FieldValue

/-! ### Choices -/

/-- The keyword of a declaration as a choice. -/
def DeclKeyword.choice (keyword : DeclKeyword) : FieldValue :=
  .choice "DeclKeyword" (keyword.text.map Char.toUpper) keyword.text

/-- A data type as a choice. -/
def DataType.choice (type : DataType) : FieldValue :=
  .choice "DataType" (type.name.map Char.toUpper) type.name

/-- A comparison operator as a choice. -/
def CompareOp.choice (op : CompareOp) : FieldValue :=
  .choice "ComparisonOperator" op.kind.name op.text

/-! ### Fields and children -/

namespace Tree

/-- The labels of the operands of an arithmetic node. -/
def operandLabels : ArithOp → String × String
  | .sum => ("augend", "addend")
  | .difference => ("minuend", "subtrahend")
  | .product => ("multiplicand", "multiplier")
  | .quotient => ("dividend", "divisor")

/-- The fields of a node, in order. -/
def fields : Tree → List Field
  | absent => []
  | program statements => [⟨"statements", .nodes statements⟩]
  | declaration keyword name type value =>
    [⟨"keyword", keyword.choice⟩, ⟨"identifier", .lexeme name⟩, ⟨"data_type", .node type⟩,
     ⟨"expression", .node value⟩]
  | assignment name value => [⟨"identifier", .lexeme name⟩, ⟨"expression", .node value⟩]
  | statement expression => [⟨"expression", .node expression⟩]
  | arith op left right =>
    [⟨(operandLabels op).1, .node left⟩, ⟨(operandLabels op).2, .node right⟩]
  | comparison left op right =>
    [⟨"left", .node left⟩, ⟨"operator", op.choice⟩, ⟨"right", .node right⟩]
  | call name arguments => [⟨"name", .lexeme name⟩, ⟨"arguments", .nodes arguments⟩]
  | block statements result =>
    [⟨"statements", .nodes statements⟩, ⟨"return_expression", .node result⟩]
  | branch condition body => [⟨"condition", .node condition⟩, ⟨"block", .node body⟩]
  | conditional condition body branches otherwise =>
    [⟨"condition", .node condition⟩, ⟨"block", .node body⟩, ⟨"else_ifs", .nodes branches⟩,
     ⟨"else_block", .node otherwise⟩]
  | negation factor => [⟨"factor", .node factor⟩]
  | parenthesized expression => [⟨"expression", .node expression⟩]
  | identifier name => [⟨"name", .lexeme name⟩]
  | literal lexeme => [⟨"lexeme", .lexeme lexeme⟩]
  | integer value => [⟨"value", .number (toString value)⟩]
  | float value => [⟨"value", .number value.toText⟩]
  | basicType name => [⟨"data_type", name.choice⟩]
  | functionType parameters result =>
    [⟨"parameters", .nodes parameters⟩, ⟨"return_type", .node result⟩]
  | parameter name type => [⟨"identifier", .lexeme name⟩, ⟨"data_type", .node type⟩]

end Tree

/-- The places for nodes in a field. -/
def FieldValue.places : FieldValue → List Tree
  | node tree => [tree]
  | nodes trees => trees
  | _ => []

/-- The nodes directly below a node, in order. -/
def Tree.children (tree : Tree) : List Tree :=
  (tree.fields.flatMap fun field => field.value.places).filter Tree.isPresent

/-! ### Spelling out -/

/-- Parts in parentheses with commas between them, and one after a single part. -/
def rowText : List String → String
  | [part] => "(" ++ part ++ ",)"
  | parts => "(" ++ ", ".intercalate parts ++ ")"

/-- A lexeme in quotes, or the word for its absence. -/
def Lexeme.quoted (lexeme : Lexeme) : String := (lexeme.map Text.quoted).getD "None"

/-- The value of a field spelled out, given how nodes are. -/
def FieldValue.spelled (spell : Tree → String) : FieldValue → String
  | node tree => spell tree
  | nodes trees => rowText (trees.map spell)
  | lexeme text => Lexeme.quoted text
  | number text => text
  | choice family member text => "<" ++ family ++ "." ++ member ++ ": " ++ Text.quoted text ++ ">"

/-- A label and the text of its value. -/
def labelled (label text : String) : String := label ++ "=" ++ text

namespace Tree

/-- A tree of at most the given number of levels, spelled out. -/
def spelledWithin : Nat → Tree → String
  | 0, _ => ""
  | _ + 1, absent => "None"
  | levels + 1, tree =>
    tree.className ++ "(" ++ ", ".intercalate (tree.fields.map fun field =>
      labelled field.label (field.value.spelled (spelledWithin levels))) ++ ")"

/-- A tree spelled out. It has no more levels than places for nodes. -/
def spelled (tree : Tree) : String := spelledWithin tree.size tree

/-! ### One line -/

mutual

/-- A tree on one line: a type or a parameter as it is written in a source, anything else spelled
out. -/
def inline : Tree → String
  | basicType name => name.name
  | functionType parameters result =>
    "(" ++ ", ".intercalate (inlines parameters) ++ ") -> " ++ inline result
  | parameter name type => Lexeme.shown name ++ ": " ++ inline type
  | tree => spelled tree

/-- Several trees, each on one line. -/
def inlines : List Tree → List String
  | [] => []
  | tree :: rest => inline tree :: inlines rest

end

end Tree

end LetLang
