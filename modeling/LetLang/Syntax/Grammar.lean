import LetLang.Number.Int64
import LetLang.Number.Reading
import LetLang.Source.Lexing
import LetLang.Syntax.Cursor

/-!
# The rules of the grammar

The rules of the grammar, loosest binding first:

    program     := statement*
    statement   := declaration | assignment | expression ';' | block | conditional
    declaration := ('let' | 'mut') IDENT ':' type '=' expression ';'
    assignment  := IDENT '=' expression ';'
    expression  := block | conditional | additive (COMPARE additive)?
    additive    := term (('+' | '-') term)*
    term        := ('-' factor | factor) (('*' | '/') factor)*
    factor      := NUMBER | IDENT ['(' expressions ')'] | '(' expression ')'
    block       := '{' statement* expression? '}'
    conditional := 'if' expression block ('else' 'if' expression block)* ('else' block)?
    type        := DATA_TYPE | '(' parameters ')' '->' type
    parameter   := IDENT ':' type

Each rule is written over the two rules that lead one level of nesting further down, those for
expressions and for types (`Level`); `typeRule` and `expression` tie the knot, level by level, and
fail once the levels are used up. A rule that repeats does so at most as often as there are tokens,
which is never too few because every round moves the cursor.

Inside a block an element is first tried as a statement. If that fails, the cursor moves back and
the rest of the block has to be one expression.
-/

set_option autoImplicit false

namespace LetLang

/-- The rules for what lies one level of nesting further down. -/
structure Level where
  type : Rule Tree
  expression : Rule Tree

/-- The number of levels that expressions and function types may nest. -/
def nestingLimit : Nat := 64

/-- The operation of a kind of token in a sum. -/
def additiveOp? : TokenKind → Option ArithOp
  | .plus => some .sum
  | .minus => some .difference
  | _ => none

/-- The operation of a kind of token in a product. -/
def multiplicativeOp? : TokenKind → Option ArithOp
  | .asterisk => some .product
  | .slash => some .quotient
  | _ => none

/-- The number that an integer or floating-point literal stands for, if its text can be read and,
for an integer, fits in 64 bits. -/
def Token.number? (token : Token) : Option Tree := do
  let text ← token.lexeme
  if token.kind == .integerLiteral then
    let value ← readInteger? text
    if fitsInt64 value then some (.integer value) else none
  else
    let value ← readDouble? text
    return .float value

namespace Rule

variable (tokens : Array Token)

/-- Fails because the next token opens one level too many. -/
def tooDeep {α : Type} : Rule α := do
  let cursor ← get
  throw (.syntaxError ⟨.nesting nestingLimit, cursor.index, cursor.next? tokens⟩)

/-! ### Lists -/

/-- Items that each follow a comma. -/
def afterCommas {α : Type} (item : Rule α) : Nat → Rule (List α)
  | 0 => return []
  | rounds + 1 => do
    if ← accept tokens .comma then
      let first ← item
      let rest ← afterCommas item rounds
      return first :: rest
    else return []

/-- Items in parentheses, with commas between them; there may be none. -/
def listed {α : Type} (item : Rule α) : Rule (List α) := do
  let _ ← expect tokens .leftParen
  if (← get).nextIs tokens .rightParen then
    let _ ← expect tokens .rightParen
    return []
  else
    let first ← item
    let rest ← afterCommas tokens item tokens.size
    let _ ← expect tokens .rightParen
    return first :: rest

/-! ### Types -/

/-- A type, given the rule for a function type. -/
def typeWith (function : Rule Tree) : Rule Tree := do
  match (← get).next? tokens with
  | some token =>
    if token.kind == .dataType then
      skip
      match token.lexeme.bind DataType.ofName? with
      | some name => return .basicType name
      | none => throw (.unknownDataType token.lexeme)
    else if token.kind == .leftParen then function
    else fail tokens .type
  | none => fail tokens .type

/-- A parameter, given the rule for its type. -/
def parameter (type : Rule Tree) : Rule Tree := do
  let name ← expect tokens .identifier
  let _ ← expect tokens .colon
  return .parameter name (← type)

/-- A function type, given the rule for the types in it. -/
def functionType (type : Rule Tree) : Rule Tree := do
  let parameters ← listed tokens (parameter tokens type)
  let _ ← expect tokens .arrow
  return .functionType parameters (← type)

/-- A type in which function types nest at most the given number of levels. -/
def typeRule : Nat → Rule Tree
  | 0 => typeWith tokens (tooDeep tokens)
  | levels + 1 => typeWith tokens (functionType tokens (typeRule levels))

/-! ### Expressions -/

/-- An integer or floating-point literal, which is the next token. -/
def typedLiteral (token : Token) : Rule Tree := do
  let start ← get
  skip
  match token.number? with
  | some number => return number
  | none => throw (.syntaxError ⟨.expected .expression, start.index, some token⟩)

/-- A literal, a name, a call or an expression in parentheses. -/
def factor (level : Level) : Rule Tree := do
  match (← get).next? tokens with
  | some token =>
    if token.kind == .numberLiteral then
      skip
      return .literal token.lexeme
    else if token.kind.isLiteral then typedLiteral token
    else if token.kind == .identifier then
      skip
      if (← get).nextIs tokens .leftParen then
        return .call token.lexeme (← listed tokens level.expression)
      else return .identifier token.lexeme
    else if token.kind == .leftParen then
      skip
      let inner ← level.expression
      let _ ← expect tokens .rightParen
      return .parenthesized inner
    else fail tokens .expression
  | none => fail tokens .expression

/-- Operations on what was read so far, one after the other, as long as their operators follow. -/
def chain (operation? : TokenKind → Option ArithOp) (operand : Rule Tree) : Nat → Tree → Rule Tree
  | 0, left => return left
  | rounds + 1, left => do
    match ((← get).next? tokens).bind (operation? ·.kind) with
    | some op =>
      skip
      let right ← operand
      chain operation? operand rounds (.arith op left right)
    | none => return left

/-- A product or quotient of factors, of which the first may have its sign changed. -/
def term (level : Level) : Rule Tree := do
  if ← accept tokens .minus then
    let first ← factor tokens level
    chain tokens multiplicativeOp? (factor tokens level) tokens.size (.negation first)
  else
    let first ← factor tokens level
    chain tokens multiplicativeOp? (factor tokens level) tokens.size first

/-- A sum or difference of terms. -/
def additive (level : Level) : Rule Tree := do
  let first ← term tokens level
  chain tokens additiveOp? (term tokens level) tokens.size first

/-- A sum, or a comparison of two. -/
def comparison (level : Level) : Rule Tree := do
  let left ← additive tokens level
  match (← get).next? tokens with
  | some token =>
    if token.kind.isComparison then
      skip
      match CompareOp.ofKind? token.kind with
      | some op =>
        let right ← additive tokens level
        return .comparison left op right
      | none => throw (.noOperator token.kind)
    else return left
  | none => return left

/-! ### Statements -/

/-- A declaration, whose keyword is the token that the cursor moves past. -/
def declaration (level : Level) : Rule Tree := do
  match ← advance tokens with
  | none => throw .noToken
  | some token =>
    match token.lexeme.bind DeclKeyword.ofText? with
    | none => throw (.unknownKeyword token.lexeme)
    | some keyword =>
      let name ← expect tokens .identifier
      let _ ← expect tokens .colon
      let type ← level.type
      let _ ← expect tokens .assignment
      let value ← level.expression
      let _ ← expect tokens .semicolon
      return .declaration keyword name type value

/-- An assignment. -/
def assignment (level : Level) : Rule Tree := do
  let name ← expect tokens .identifier
  let _ ← expect tokens .assignment
  let value ← level.expression
  let _ ← expect tokens .semicolon
  return .assignment name value

/-- An expression as a statement. The semicolon after a braced one may be left out. -/
def expressionStatement (level : Level) : Rule Tree := do
  let expression ← level.expression
  if expression.isBraced then
    let _ ← accept tokens .semicolon
    return .statement expression
  else
    let _ ← expect tokens .semicolon
    return .statement expression

/-- A statement of any sort. -/
def statement (level : Level) : Rule Tree := do
  let cursor ← get
  if cursor.nextIsKeyword tokens "let" || cursor.nextIsKeyword tokens "mut" then
    declaration tokens level
  else if cursor.nextIs tokens .identifier && cursor.secondIs tokens .assignment then
    assignment tokens level
  else expressionStatement tokens level

/-! ### Blocks -/

/-- The expression that ends a block, after the attempt to read a statement there failed with the
given error. If there is no such expression either, the error that lies further on is reported, and
the error of the statement if neither does. -/
def trailing (level : Level) (statementError : SyntaxError) : Rule Tree := fun cursor =>
  match level.expression cursor with
  | .ok tree after =>
    if after.nextIs tokens .rightCurly then .ok tree after
    else .error (.syntaxError statementError) after
  | .error (.syntaxError error) after =>
    if statementError.position < error.position then .error (.syntaxError error) after
    else .error (.syntaxError statementError) after
  | .error failure after => .error failure after

/-- The expression that a statement just read turns out to be when it ends a block: a braced one
that directly precedes the closing brace. -/
def blockResult? : Tree → Rule (Option Tree)
  | .statement expression => do
    let cursor ← get
    if expression.isBraced && cursor.nextIs tokens .rightCurly then
      match cursor.previous? tokens with
      | some token => return if token.kind == .semicolon then none else some expression
      | none => throw .noPrevious
    else return none
  | _ => return none

/-- The statements of a block and the expression that ends them, if there is one. -/
def blockElements (level : Level) : Nat → Rule (List Tree × Tree)
  | 0 => return ([], .absent)
  | rounds + 1 => do
    let start ← get
    if start.nextIs tokens .rightCurly || start.atEnd tokens then return ([], .absent)
    else
      match ← speculate (statement tokens level) with
      | .error error => return ([], ← trailing tokens level error)
      | .ok element =>
        match ← blockResult? tokens element with
        | some result => return ([], result)
        | none =>
          let (rest, result) ← blockElements level rounds
          return (element :: rest, result)

/-- A block. -/
def block (level : Level) : Rule Tree := do
  let _ ← expect tokens .leftCurly
  let (statements, result) ← blockElements tokens level tokens.size
  let _ ← expect tokens .rightCurly
  return .block statements result

/-! ### Conditionals -/

/-- The branches of a conditional after the first. -/
def elseBranches (level : Level) : Nat → Rule (List Tree)
  | 0 => return []
  | rounds + 1 => do
    let start ← get
    if start.nextIsKeyword tokens "else" && start.secondIsKeyword tokens "if" then
      skip
      skip
      let condition ← level.expression
      let body ← block tokens level
      let rest ← elseBranches level rounds
      return .branch condition body :: rest
    else return []

/-- The last block of a conditional, if there is one. -/
def elseBlock (level : Level) : Rule Tree := do
  if (← get).nextIsKeyword tokens "else" then
    skip
    block tokens level
  else return .absent

/-- A conditional. -/
def conditional (level : Level) : Rule Tree := do
  expectKeyword tokens "if"
  let condition ← level.expression
  let body ← block tokens level
  let branches ← elseBranches tokens level tokens.size
  let otherwise ← elseBlock tokens level
  return .conditional condition body branches otherwise

/-! ### The knot -/

/-- An expression, given the rules for one level further down. -/
def expressionWith (level : Level) : Rule Tree := do
  let cursor ← get
  if cursor.nextIs tokens .leftCurly then block tokens level
  else if cursor.nextIsKeyword tokens "if" then conditional tokens level
  else comparison tokens level

/-- An expression with at most the given number of levels, its own included. -/
def expression : Nat → Rule Tree
  | 0 => remembered (tooDeep tokens)
  | levels + 1 => remembered (expressionWith tokens ⟨typeRule tokens levels, expression levels⟩)

/-- The rules that may still open the given number of levels. -/
def level (levels : Nat) : Level := ⟨typeRule tokens levels, expression tokens levels⟩

/-! ### Programs -/

/-- Statements up to the end of the input. -/
def statements (level : Level) : Nat → Rule (List Tree)
  | 0 => return []
  | rounds + 1 => do
    if (← get).atEnd tokens then return []
    else
      let first ← statement tokens level
      let rest ← statements level rounds
      return first :: rest

/-- A whole program. -/
def program (level : Level) : Rule Tree := do
  let found ← statements tokens level tokens.size
  record (.parsed found.length)
  return .program found

end Rule

/-- Parses a whole program from the first token, and gives the cursor where parsing ended. -/
def parseFrom (tokens : Array Token) (cursor : Cursor) : EStateM.Result ParseFailure Cursor Tree :=
  Rule.program tokens (Rule.level tokens nestingLimit) cursor

/-- The program that a list of tokens stands for, or why there is none. -/
def parse (tokens : List Token) : Except ParseFailure Tree :=
  match parseFrom tokens.toArray {} with
  | .ok tree _ => .ok tree
  | .error failure _ => .error failure

/-! ### Sources -/

/-- Why a source text stands for no program. -/
inductive SourceFailure
  /-- It has a piece that is no token. -/
  | lexical (error : LexError)
  /-- Its tokens could not be parsed. -/
  | parsing (failure : ParseFailure)
  deriving DecidableEq

/-- The program that a source text stands for, or why there is none. -/
def parseSource (source : String) (file : String) : Except SourceFailure Tree :=
  match tokenize source file with
  | .error error => .error (.lexical error)
  | .ok tokens => (parse tokens).mapError .parsing

end LetLang
