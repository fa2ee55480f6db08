import LetLang.Proofs.Run
import LetLang.Syntax.Grammar

/-!
# Reading by prediction

A second parser for the same grammar, which never moves back. It works on the list of tokens that
are left (`Reader`), remembers nothing, and decides from at most two tokens what comes next.

Only the elements of a block are read differently from the rules of the grammar. There a keyword of
declarations starts a declaration and a name before `=` an assignment; otherwise an expression is
read once, and what follows it decides what it was: a statement before a semicolon, the result of
the block before the closing brace, and after a block or a conditional, which need no semicolon,
whatever else follows starts the next element (`Reader.elements`).

A reader that stops leaves the tokens at which it stopped; their number gives the index that an
error reports (`Obstacle.failure`). Loops run for at most `rounds` rounds, where `rounds` is the
number of tokens of the whole input.
-/

set_option autoImplicit false

namespace LetLang

/-- Why a reader stopped. -/
inductive Obstacle
  /-- The tokens do not fit the grammar. -/
  | misfit (cause : SyntaxCause)
  /-- A token of the kind of data types does not name one. -/
  | unknownDataType (lexeme : Lexeme)

/-- The failure of a parse of `total` tokens that stopped with `rest` still to be read. -/
def Obstacle.failure (total : Nat) (rest : List Token) : Obstacle → ParseFailure
  | misfit cause => .syntaxError ⟨cause, (total - rest.length : Nat), rest.head?⟩
  | unknownDataType lexeme => .unknownDataType lexeme

/-- A program that takes tokens from the front of a list. -/
abbrev Reader (α : Type) : Type := EStateM Obstacle (List Token) α

/-- The readers for what lies one level of nesting further down. -/
structure ReaderLevel where
  type : Reader Tree
  expression : Reader Tree

namespace Reader

/-! ### Looking ahead -/

/-- Whether the next token is of a kind. -/
def nextIs (kind : TokenKind) (input : List Token) : Bool := input.head?.any (·.kind == kind)

/-- Whether the next token is a keyword. -/
def nextIsKeyword (word : String) (input : List Token) : Bool :=
  input.head?.any (·.isKeyword word)

/-- Whether the token after the next is of a kind. -/
def secondIs (kind : TokenKind) (input : List Token) : Bool := input[1]?.any (·.kind == kind)

/-- Whether the token after the next is a keyword. -/
def secondIsKeyword (word : String) (input : List Token) : Bool :=
  input[1]?.any (·.isKeyword word)

/-- Whether the input ends here. -/
def atEnd (input : List Token) : Bool := input.head?.all (·.kind == .endOfStream)

/-- The keyword of the declaration that starts here, if one does. -/
def declKeyword? (input : List Token) : Option DeclKeyword :=
  if nextIsKeyword "let" input then some .let_
  else if nextIsKeyword "mut" input then some .mut_
  else none

/-- Whether an assignment starts here. -/
def startsAssignment (input : List Token) : Bool :=
  nextIs .identifier input && secondIs .assignment input

/-! ### Taking tokens -/

/-- Takes the next token. -/
def skip : Reader Unit := modify List.tail

/-- Stops because something else than the next token was expected. -/
def fail {α : Type} (what : Expected) : Reader α := throw (.misfit (.expected what))

/-- Stops because the next token opens one level too many. -/
def tooDeep {α : Type} : Reader α := throw (.misfit (.nesting nestingLimit))

/-- Takes the next token if it is of a kind, and says whether it was. -/
def accept (kind : TokenKind) : Reader Bool := do
  if nextIs kind (← get) then
    skip
    return true
  else return false

/-- Takes the next token, which has to be of a kind, and yields its lexeme. -/
def expect (kind : TokenKind) : Reader Lexeme := do
  match (← get).head? with
  | some token =>
    if token.kind == kind then
      skip
      return token.lexeme
    else fail (.token kind)
  | none => fail (.token kind)

/-- Takes the next token, which has to be a keyword. -/
def expectKeyword (word : String) : Reader Unit := do
  if nextIsKeyword word (← get) then skip else fail (.keyword word)

/-! ### Runs of readers -/

section

variable {kind : TokenKind} {token : Token} {input rest : List Token}

@[simp] theorem nextIs_nil : nextIs kind [] = false := rfl

@[simp] theorem nextIs_cons : nextIs kind (token :: rest) = (token.kind == kind) := rfl

theorem exists_of_nextIs (hnext : nextIs kind input = true) :
    ∃ token rest, input = token :: rest ∧ token.kind = kind := by
  cases input with
  | nil => cases hnext
  | cons token rest => exact ⟨token, rest, rfl, by simpa using hnext⟩

@[simp] theorem nextIsKeyword_cons {word : String} :
    nextIsKeyword word (token :: rest) = token.isKeyword word := rfl

theorem exists_of_nextIsKeyword {word : String} (hnext : nextIsKeyword word input = true) :
    ∃ token rest, input = token :: rest ∧ token.isKeyword word = true := by
  cases input with
  | nil => cases hnext
  | cons token rest => exact ⟨token, rest, rfl, hnext⟩

theorem exists_of_secondIsKeyword {word : String} (hsecond : secondIsKeyword word (token :: rest) = true) :
    ∃ second others, rest = second :: others ∧ second.isKeyword word = true := by
  cases rest with
  | nil => cases hsecond
  | cons second others => exact ⟨second, others, rfl, hsecond⟩

theorem exists_of_declKeyword? {keyword : DeclKeyword} (hkeyword : declKeyword? input = some keyword) :
    ∃ token rest, input = token :: rest ∧ token.isKeyword keyword.text = true := by
  unfold declKeyword? at hkeyword
  split at hkeyword
  · next hlet =>
    cases hkeyword
    exact exists_of_nextIsKeyword hlet
  · split at hkeyword
    · next hmut =>
      cases hkeyword
      exact exists_of_nextIsKeyword hmut
    · cases hkeyword

theorem skip_cons : skip (token :: rest) = .ok () rest := rfl

theorem expect_cons (htoken : token.kind = kind) :
    expect kind (token :: rest) = .ok token.lexeme rest := by
  change (if token.kind == kind then _ else _ : Reader Lexeme) (token :: rest) = _
  rw [if_pos (by simpa using htoken)]
  rfl

theorem expectKeyword_cons {word : String} (htoken : token.isKeyword word = true) :
    expectKeyword word (token :: rest) = .ok () rest := by
  change (if nextIsKeyword word (token :: rest) then _ else _ : Reader Unit) (token :: rest) = _
  rw [if_pos (by simpa using htoken)]
  rfl

theorem expectKeyword_of_not {word : String} (hnext : nextIsKeyword word input = false) :
    expectKeyword word input = .error (.misfit (.expected (.keyword word))) input := by
  change (if nextIsKeyword word input then _ else _ : Reader Unit) input = _
  rw [if_neg (by simp [hnext])]
  rfl

theorem expect_of_not (hnext : nextIs kind input = false) :
    expect kind input = .error (.misfit (.expected (.token kind))) input := by
  cases input with
  | nil => rfl
  | cons token rest =>
    change (if token.kind == kind then _ else _ : Reader Lexeme) (token :: rest) = _
    rw [if_neg (by simpa using hnext)]
    rfl

theorem accept_cons (htoken : token.kind = kind) :
    accept kind (token :: rest) = .ok true rest := by
  change (if nextIs kind (token :: rest) then _ else _ : Reader Bool) (token :: rest) = _
  rw [if_pos (by simpa using htoken)]
  rfl

theorem accept_of_not (hnext : nextIs kind input = false) :
    accept kind input = .ok false input := by
  change (if nextIs kind input then _ else _ : Reader Bool) input = _
  rw [if_neg (by simp [hnext])]
  rfl

end

/-! ### Lists -/

/-- Items that each follow a comma. -/
def afterCommas {α : Type} (item : Reader α) : Nat → Reader (List α)
  | 0 => return []
  | rounds + 1 => do
    if ← accept .comma then
      let first ← item
      let rest ← afterCommas item rounds
      return first :: rest
    else return []

variable (rounds : Nat)

/-- Items in parentheses, with commas between them; there may be none. -/
def listed {α : Type} (item : Reader α) : Reader (List α) := do
  let _ ← expect .leftParen
  if nextIs .rightParen (← get) then
    let _ ← expect .rightParen
    return []
  else
    let first ← item
    let rest ← afterCommas item rounds
    let _ ← expect .rightParen
    return first :: rest

/-! ### Types -/

/-- A type, given the reader for a function type. -/
def typeWith (function : Reader Tree) : Reader Tree := do
  match (← get).head? with
  | some token =>
    if token.kind == .dataType then
      match token.lexeme.bind DataType.ofName? with
      | some name =>
        skip
        return .basicType name
      | none => throw (.unknownDataType token.lexeme)
    else if token.kind == .leftParen then function
    else fail .type
  | none => fail .type

/-- A parameter, given the reader for its type. -/
def parameter (type : Reader Tree) : Reader Tree := do
  let name ← expect .identifier
  let _ ← expect .colon
  return .parameter name (← type)

/-- A function type, given the reader for the types in it. -/
def functionType (type : Reader Tree) : Reader Tree := do
  let parameters ← listed rounds (parameter type)
  let _ ← expect .arrow
  return .functionType parameters (← type)

/-- A type in which function types nest at most the given number of levels. -/
def type : Nat → Reader Tree
  | 0 => typeWith tooDeep
  | levels + 1 => typeWith (functionType rounds (type levels))

/-! ### Expressions -/

/-- An integer or floating-point literal, which is the next token. -/
def typedLiteral (token : Token) : Reader Tree := do
  match token.number? with
  | some number =>
    skip
    return number
  | none => fail .expression

/-- A literal, a name, a call or an expression in parentheses. -/
def factor (level : ReaderLevel) : Reader Tree := do
  match (← get).head? with
  | some token =>
    if token.kind == .numberLiteral then
      skip
      return .literal token.lexeme
    else if token.kind.isLiteral then typedLiteral token
    else if token.kind == .identifier then
      skip
      if nextIs .leftParen (← get) then
        return .call token.lexeme (← listed rounds level.expression)
      else return .identifier token.lexeme
    else if token.kind == .leftParen then
      skip
      let inner ← level.expression
      let _ ← expect .rightParen
      return .parenthesized inner
    else fail .expression
  | none => fail .expression

/-- Operations on what was read so far, one after the other, as long as their operators follow. -/
def chain (operation? : TokenKind → Option ArithOp) (operand : Reader Tree) :
    Nat → Tree → Reader Tree
  | 0, left => return left
  | rounds + 1, left => do
    match (← get).head?.bind (operation? ·.kind) with
    | some op =>
      skip
      let right ← operand
      chain operation? operand rounds (.arith op left right)
    | none => return left

/-- A product or quotient of factors, of which the first may have its sign changed. -/
def term (level : ReaderLevel) : Reader Tree := do
  if ← accept .minus then
    let first ← factor rounds level
    chain multiplicativeOp? (factor rounds level) rounds (.negation first)
  else
    let first ← factor rounds level
    chain multiplicativeOp? (factor rounds level) rounds first

/-- A sum or difference of terms. -/
def additive (level : ReaderLevel) : Reader Tree := do
  let first ← term rounds level
  chain additiveOp? (term rounds level) rounds first

/-- A sum, or a comparison of two. -/
def comparison (level : ReaderLevel) : Reader Tree := do
  let left ← additive rounds level
  match (← get).head?.bind (CompareOp.ofKind? ·.kind) with
  | some op =>
    skip
    let right ← additive rounds level
    return .comparison left op right
  | none => return left

/-! ### Statements -/

/-- What follows the keyword of a declaration. -/
def declarationBody (level : ReaderLevel) (keyword : DeclKeyword) : Reader Tree := do
  let name ← expect .identifier
  let _ ← expect .colon
  let type ← level.type
  let _ ← expect .assignment
  let value ← level.expression
  let _ ← expect .semicolon
  return .declaration keyword name type value

/-- A declaration, whose keyword is the next token. -/
def declaration (level : ReaderLevel) (keyword : DeclKeyword) : Reader Tree := do
  skip
  declarationBody level keyword

/-- What follows the name in an assignment. -/
def assignmentBody (level : ReaderLevel) (name : Lexeme) : Reader Tree := do
  let _ ← expect .assignment
  let value ← level.expression
  let _ ← expect .semicolon
  return .assignment name value

/-- An assignment. -/
def assignment (level : ReaderLevel) : Reader Tree := do
  let name ← expect .identifier
  assignmentBody level name

/-- An expression as a statement. The semicolon after a braced one may be left out. -/
def expressionStatement (level : ReaderLevel) : Reader Tree := do
  let expression ← level.expression
  if expression.isBraced then
    let _ ← accept .semicolon
    return .statement expression
  else
    let _ ← expect .semicolon
    return .statement expression

/-- A statement of any sort. -/
def statement (level : ReaderLevel) : Reader Tree := do
  match declKeyword? (← get) with
  | some keyword => declaration level keyword
  | none => if startsAssignment (← get) then assignment level else expressionStatement level

/-! ### Blocks -/

/-- Puts a statement before the elements of a block. -/
def prepend (first : Tree) (elements : Reader (List Tree × Tree)) : Reader (List Tree × Tree) := do
  let (rest, result) ← elements
  return (first :: rest, result)

/-- What an expression in a block turns out to be, given the reader for the elements after it. -/
def afterExpression (expression : Tree) (more : Reader (List Tree × Tree)) :
    Reader (List Tree × Tree) := do
  if nextIs .rightCurly (← get) then
    skip
    return ([], expression)
  else if expression.isBraced then
    let _ ← accept .semicolon
    prepend (.statement expression) more
  else
    let _ ← expect .semicolon
    prepend (.statement expression) more

theorem afterExpression_of_rightCurly {expression : Tree} {more : Reader (List Tree × Tree)}
    {input : List Token} (hnext : nextIs .rightCurly input = true) :
    afterExpression expression more input =
      (do let _ ← expect .rightCurly; return ([], expression)) input := by
  obtain ⟨right, rest, rfl, hright⟩ := exists_of_nextIs hnext
  rw [afterExpression, Run.get_bind, if_pos hnext, Run.bind_of_ok (expect_cons hright)]
  rfl

theorem afterExpression_of_not {expression : Tree} {more : Reader (List Tree × Tree)}
    {input : List Token} (hnext : nextIs .rightCurly input = false) :
    afterExpression expression more input = (if expression.isBraced then do
        let _ ← accept .semicolon
        prepend (.statement expression) more
      else do
        let _ ← expect .semicolon
        prepend (.statement expression) more) input := by
  rw [afterExpression, Run.get_bind, if_neg (by simp [hnext])]

/-- The statements of a block and the expression that ends them, if there is one, up to and with the
closing brace. -/
def elements (level : ReaderLevel) : Nat → Reader (List Tree × Tree)
  | 0 => do
    let _ ← expect .rightCurly
    return ([], .absent)
  | rounds + 1 => do
    if nextIs .rightCurly (← get) || atEnd (← get) then
      let _ ← expect .rightCurly
      return ([], .absent)
    else
      match declKeyword? (← get) with
      | some keyword =>
        let first ← declaration level keyword
        prepend first (elements level rounds)
      | none =>
        if startsAssignment (← get) then
          let first ← assignment level
          prepend first (elements level rounds)
        else
          let expression ← level.expression
          afterExpression expression (elements level rounds)

/-- A block. -/
def block (level : ReaderLevel) : Reader Tree := do
  let _ ← expect .leftCurly
  let (statements, result) ← elements level rounds
  return .block statements result

/-! ### Conditionals -/

/-- The branches of a conditional after the first. -/
def elseBranches (level : ReaderLevel) : Nat → Reader (List Tree)
  | 0 => return []
  | more + 1 => do
    if nextIsKeyword "else" (← get) && secondIsKeyword "if" (← get) then
      skip
      skip
      let condition ← level.expression
      let body ← block rounds level
      let rest ← elseBranches level more
      return .branch condition body :: rest
    else return []

/-- The last block of a conditional, if there is one. -/
def elseBlock (level : ReaderLevel) : Reader Tree := do
  if nextIsKeyword "else" (← get) then
    skip
    block rounds level
  else return .absent

/-- A conditional. -/
def conditional (level : ReaderLevel) : Reader Tree := do
  expectKeyword "if"
  let condition ← level.expression
  let body ← block rounds level
  let branches ← elseBranches rounds level rounds
  let otherwise ← elseBlock rounds level
  return .conditional condition body branches otherwise

/-! ### The knot -/

/-- An expression, given the readers for one level further down. -/
def expressionWith (level : ReaderLevel) : Reader Tree := do
  if nextIs .leftCurly (← get) then block rounds level
  else if nextIsKeyword "if" (← get) then conditional rounds level
  else comparison rounds level

/-- An expression with at most the given number of levels, its own included. -/
def expression : Nat → Reader Tree
  | 0 => tooDeep
  | levels + 1 => expressionWith rounds ⟨type rounds levels, expression levels⟩

/-- The readers that may still open the given number of levels. -/
def level (levels : Nat) : ReaderLevel := ⟨type rounds levels, expression rounds levels⟩

/-! ### Programs -/

/-- Statements up to the end of the input. -/
def statements (level : ReaderLevel) : Nat → Reader (List Tree)
  | 0 => return []
  | rounds + 1 => do
    if atEnd (← get) then return []
    else
      let first ← statement level
      let rest ← statements level rounds
      return first :: rest

/-- A whole program. -/
def program (level : ReaderLevel) : Reader Tree := do
  return .program (← statements level rounds)

end Reader

/-- The program that a list of tokens stands for, or why there is none, read without moving
back. -/
def predict (tokens : List Token) : Except ParseFailure Tree :=
  match Reader.program tokens.length (Reader.level tokens.length nestingLimit) tokens with
  | .ok tree _ => .ok tree
  | .error obstacle rest => .error (obstacle.failure tokens.length rest)

end LetLang
