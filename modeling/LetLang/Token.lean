/-!
# Tokens

Tokens: a kind and, unless its producer left it out, the text the token was read from. Kinds have a
name, used when tokens are listed, and a description, used in messages. The tables say which words
are keywords or names of data types and which kind each operator has.
-/

set_option autoImplicit false

namespace LetLang

/-- The kinds of token. -/
inductive TokenKind
  | keyword
  | identifier
  | dataType
  | numberLiteral
  | integerLiteral
  | floatLiteral
  | plus
  | minus
  | asterisk
  | slash
  | assignment
  | equal
  | notEqual
  | lessThan
  | greaterThan
  | lessEqual
  | greaterEqual
  | colon
  | semicolon
  | comma
  | arrow
  | leftParen
  | rightParen
  | leftCurly
  | rightCurly
  | endOfStream
  deriving DecidableEq, Inhabited

namespace TokenKind

/-- All kinds. -/
def all : List TokenKind :=
  [keyword, identifier, dataType, numberLiteral, integerLiteral, floatLiteral, plus, minus,
   asterisk, slash, assignment, equal, notEqual, lessThan, greaterThan, lessEqual, greaterEqual,
   colon, semicolon, comma, arrow, leftParen, rightParen, leftCurly, rightCurly, endOfStream]

/-- The name of a kind in a listing of tokens. -/
def name : TokenKind → String
  | keyword => "KEYWORD"
  | identifier => "IDENTIFIER"
  | dataType => "DATA_TYPE"
  | numberLiteral => "NUMBER_LITERAL"
  | integerLiteral => "INTEGER_LITERAL"
  | floatLiteral => "FLOAT_LITERAL"
  | plus => "PLUS"
  | minus => "MINUS"
  | asterisk => "ASTERISK"
  | slash => "SLASH"
  | assignment => "ASSIGNMENT"
  | equal => "EQUAL"
  | notEqual => "NOT_EQUAL"
  | lessThan => "LESS_THAN"
  | greaterThan => "GREATER_THAN"
  | lessEqual => "LESS_EQUAL"
  | greaterEqual => "GREATER_EQUAL"
  | colon => "COLON"
  | semicolon => "SEMICOLON"
  | comma => "COMMA"
  | arrow => "ARROW"
  | leftParen => "LEFT_PAREN"
  | rightParen => "RIGHT_PAREN"
  | leftCurly => "LEFT_CURLY"
  | rightCurly => "RIGHT_CURLY"
  | endOfStream => "END_OF_STREAM"

/-- The kind of a given name. -/
def ofName? (text : String) : Option TokenKind := all.find? (·.name == text)

/-- What a kind is called in a message. -/
def description : TokenKind → String
  | keyword => "keyword"
  | identifier => "identifier"
  | dataType => "data type"
  | numberLiteral => "number"
  | integerLiteral => "integer"
  | floatLiteral => "float"
  | plus => "plus"
  | minus => "minus"
  | asterisk => "asterisk"
  | slash => "slash"
  | assignment => "assignment"
  | equal => "equal"
  | notEqual => "not equal"
  | lessThan => "less than"
  | greaterThan => "greater than"
  | lessEqual => "less-than-or-equal"
  | greaterEqual => "greater-than-or-equal"
  | colon => "colon"
  | semicolon => "semicolon"
  | comma => "comma"
  | arrow => "arrow"
  | leftParen => "open parenthesis"
  | rightParen => "closing parenthesis"
  | leftCurly => "open brace"
  | rightCurly => "closing brace"
  | endOfStream => "end of stream"

/-- Whether tokens of a kind are numeric literals. -/
def isLiteral : TokenKind → Bool
  | numberLiteral | integerLiteral | floatLiteral => true
  | _ => false

/-- Whether tokens of a kind are comparison operators. -/
def isComparison : TokenKind → Bool
  | equal | notEqual | lessThan | greaterThan | lessEqual | greaterEqual => true
  | _ => false

end TokenKind

/-- The text that a token was read from; absent when the producer of the token left it out. -/
abbrev Lexeme := Option String

/-- A lexeme inside a message. -/
def Lexeme.shown (lexeme : Lexeme) : String := lexeme.getD "None"

/-- A lexical token. -/
structure Token where
  kind : TokenKind
  lexeme : Lexeme := none
  deriving DecidableEq, Inhabited

namespace Token

/-- A token in a message: its description and, in quotes, its lexeme. -/
def text (token : Token) : String :=
  match token.lexeme with
  | some lexeme => token.kind.description ++ " '" ++ lexeme ++ "'"
  | none => token.kind.description

/-- Whether a token is a keyword with the given lexeme. -/
def isKeyword (token : Token) (word : Lexeme) : Bool :=
  token.kind == .keyword && token.lexeme == word

/-- The token that ends every token list. -/
def endOfStream : Token := ⟨.endOfStream, none⟩

end Token

/-! ### Tables -/

/-- The keywords. -/
def keywords : List String := ["let", "mut", "if", "else"]

/-- The names of the data types. -/
def dataTypeNames : List String := ["int", "float", "number", "unit"]

/-- The operators and their kinds, those of two characters first. -/
def operators : List (String × TokenKind) :=
  [("==", .equal), ("!=", .notEqual), ("<=", .lessEqual), (">=", .greaterEqual), ("->", .arrow),
   ("=", .assignment), ("<", .lessThan), (">", .greaterThan), (":", .colon), (";", .semicolon),
   (",", .comma), ("+", .plus), ("-", .minus), ("*", .asterisk), ("/", .slash),
   ("(", .leftParen), (")", .rightParen), ("\x7b", .leftCurly), ("\x7d", .rightCurly)]

/-- The kind of an operator, if the text is one. -/
def operatorKind? (text : String) : Option TokenKind := operators.lookup text

/-- The kind of a word: a keyword, the name of a data type, or else an identifier. -/
def wordKind (word : String) : TokenKind :=
  if keywords.contains word then .keyword
  else if dataTypeNames.contains word then .dataType
  else .identifier

end LetLang
