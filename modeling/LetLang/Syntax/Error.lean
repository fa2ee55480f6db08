import LetLang.Diagnostic
import LetLang.Token

/-!
# Syntax errors

Syntax errors. An error says what was expected and which token stood at which index instead, if any
did; its code, wording and suggestions follow from that (`SyntaxError.diagnostic`). Nothing is found
where the tokens end or an `endOfStream` token stands.
-/

set_option autoImplicit false

namespace LetLang

/-- What a rule needed to go on. -/
inductive Expected
  /-- A token of a kind. -/
  | token (kind : TokenKind)
  /-- A keyword. -/
  | keyword (word : String)
  /-- A token that starts an expression, or a number that can be read. -/
  | expression
  /-- A token that starts a type. -/
  | type
  deriving DecidableEq

/-- Why parsing stopped. -/
inductive SyntaxCause
  /-- Something else than what was expected was found. -/
  | expected (what : Expected)
  /-- The nesting passed the limit. -/
  | nesting (limit : Nat)
  /-- A reason handed in from outside, in its own words. -/
  | reported (message : String)
  deriving DecidableEq

/-- A syntax error: its cause, the index of the token it is about, and the token there, if any. An
index handed in from outside need not be one of a token. -/
structure SyntaxError where
  cause : SyntaxCause
  position : Int
  token? : Option Token := none
  deriving DecidableEq

/-- What is expected, in words. -/
def Expected.text : Expected → String
  | token kind => kind.description
  | keyword word => "keyword '" ++ word ++ "'"
  | expression => "expression"
  | type => "type"

/-- What to do about a missing token. -/
def missingTokenSuggestions : TokenKind → List String
  | .semicolon => ["Add a semicolon ';' to end the statement"]
  | .rightParen => ["Add a closing parenthesis ')'"]
  | .rightCurly => ["Add a closing brace '\x7d'"]
  | .leftCurly => ["Add an opening brace '\x7b' to start a block"]
  | .colon => ["Add a colon ':' before the type annotation"]
  | .arrow => ["Add an arrow '->' before the return type"]
  | .assignment => ["Add an assignment operator '='"]
  | _ => []

/-- What to do about an unexpected token, by what was expected. -/
def Expected.suggestions : Expected → List String
  | token kind => missingTokenSuggestions kind
  | keyword _ => []
  | expression => ["Check that every operator has operands"]
  | type =>
    ["Use one of the basic types: int, float, number, unit",
     "Write function types as '(name: type, ...) -> type'"]

/-- What to do about the end of the input, by what was expected. -/
def Expected.suggestionsAtEnd : Expected → List String
  | token kind => missingTokenSuggestions kind
  | _ => []

/-- The code of an unexpected token, by what was expected. -/
def Expected.code : Expected → String
  | token .semicolon => "P003"
  | token _ => "P001"
  | keyword _ => "P001"
  | expression => "P004"
  | type => "P005"

namespace SyntaxError

/-- The token that was found: none where the input ends. -/
def found? (error : SyntaxError) : Option Token :=
  error.token?.filter (·.kind != .endOfStream)

/-- The report of a syntax error. -/
def diagnostic (error : SyntaxError) : Diagnostic :=
  match error.cause, error.found? with
  | .expected what, none =>
    { message := "Expected " ++ what.text ++ ", found nothing"
      code? := some "P002"
      help? := some ("The input ended while the parser still expected " ++ what.text ++ ".")
      suggestions := what.suggestionsAtEnd
      position? := some error.position }
  | .expected what, some token =>
    { message := "Expected " ++ what.text ++ ", found " ++ token.text
      code? := some what.code
      help? := some ("The parser expected to see " ++ what.text ++ " at this position, but found "
        ++ token.text ++ " instead.")
      suggestions := what.suggestions
      position? := some error.position }
  | .nesting limit, _ =>
    { message := "Nesting too deep: more than " ++ toString limit ++ " levels"
      code? := some "P006"
      help? := some ("Parentheses, blocks, ifs, call arguments and function types may nest at most "
        ++ toString limit ++ " levels deep.")
      suggestions := ["Move part of the expression into a separate declaration"]
      position? := some error.position }
  | .reported message, _ => { message := message, position? := some error.position }

/-- The codes of syntax errors and what they stand for. -/
def codeTable : List (String × String) :=
  [("P001", "Unexpected token"), ("P002", "Unexpected end of input"),
   ("P003", "Missing semicolon"), ("P004", "Invalid expression"),
   ("P005", "Invalid type annotation"), ("P006", "Nesting too deep")]

end SyntaxError

end LetLang
