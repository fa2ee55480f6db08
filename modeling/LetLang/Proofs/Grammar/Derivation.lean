import LetLang.Syntax.Grammar

/-!
# Derivations

The grammar as a relation between trees and token lists, said without a cursor, a memo or a second
attempt. `IsProgram tree tokens` holds when the tokens derive the tree, and every token of the list
is one place of the derivation: a name, a literal, a keyword or a mark of punctuation, in order.

Chains of operators lean to the left, so their rules are left-recursive, and each tier of binding is
a relation of its own: the right operand of a sum is a term (`IsTerm`), that of a product a factor
(`IsFactor`), the sides of a comparison are sums (`IsAdditive`), and a sign stands only before the
first factor of a term.

A block or a conditional ends itself, so as a statement it needs no semicolon. Directly before the
closing brace of a block the two readings of such a phrase, as the last statement and as the result
of the block, would both be open. The grammar keeps the second: the last statement of a block
without a result is one that ends with a semicolon (`IsEnded`).

`Tree.nesting` counts the levels of a tree that a parser opens one inside the other: one for every
place that holds a whole expression and one for every function type. `Tree.tiered` says of a tree
alone that its operands keep to their tiers; derived trees do (`IsProgram.tiered`).
-/

set_option autoImplicit false

namespace LetLang

/-! ### Types -/

mutual

/-- A type: the name of a data type, or parameters, an arrow and a type. -/
inductive IsType : Tree → List Token → Prop
  | basic {token : Token} {name : DataType} (hkind : token.kind = .dataType)
      (hname : token.lexeme = some name.name) : IsType (.basicType name) [token]
  | constant {left right arrow : Token} {result : Tree} {resultTokens : List Token}
      (hleft : left.kind = .leftParen) (hright : right.kind = .rightParen)
      (harrow : arrow.kind = .arrow) (hresult : IsType result resultTokens) :
      IsType (.functionType [] result) (left :: right :: arrow :: resultTokens)
  | function {left right arrow : Token} {parameters : List Tree} {result : Tree}
      {parameterTokens resultTokens : List Token} (hleft : left.kind = .leftParen)
      (hparameters : AreParameters parameters parameterTokens) (hright : right.kind = .rightParen)
      (harrow : arrow.kind = .arrow) (hresult : IsType result resultTokens) :
      IsType (.functionType parameters result)
        (left :: (parameterTokens ++ right :: arrow :: resultTokens))

/-- A parameter: a name, a colon and a type. -/
inductive IsParameter : Tree → List Token → Prop
  | named {name colon : Token} {type : Tree} {typeTokens : List Token}
      (hname : name.kind = .identifier) (hcolon : colon.kind = .colon)
      (htype : IsType type typeTokens) :
      IsParameter (.parameter name.lexeme type) (name :: colon :: typeTokens)

/-- One or more parameters with commas between them. -/
inductive AreParameters : List Tree → List Token → Prop
  | one {parameter : Tree} {tokens : List Token} (hparameter : IsParameter parameter tokens) :
      AreParameters [parameter] tokens
  | more {parameter : Tree} {parameters : List Tree} {tokens rest : List Token} {comma : Token}
      (hparameter : IsParameter parameter tokens) (hcomma : comma.kind = .comma)
      (hrest : AreParameters parameters rest) :
      AreParameters (parameter :: parameters) (tokens ++ comma :: rest)

end

/-! ### Expressions, statements and blocks -/

mutual

/-- A factor: a literal, a name, a call, or an expression in parentheses. -/
inductive IsFactor : Tree → List Token → Prop
  | literal {token : Token} (hkind : token.kind = .numberLiteral) :
      IsFactor (.literal token.lexeme) [token]
  | number {token : Token} {number : Tree}
      (hkind : token.kind = .integerLiteral ∨ token.kind = .floatLiteral)
      (hnumber : token.number? = some number) : IsFactor number [token]
  | identifier {token : Token} (hkind : token.kind = .identifier) :
      IsFactor (.identifier token.lexeme) [token]
  | emptyCall {name left right : Token} (hname : name.kind = .identifier)
      (hleft : left.kind = .leftParen) (hright : right.kind = .rightParen) :
      IsFactor (.call name.lexeme []) [name, left, right]
  | call {name left right : Token} {arguments : List Tree} {tokens : List Token}
      (hname : name.kind = .identifier) (hleft : left.kind = .leftParen)
      (harguments : AreArguments arguments tokens) (hright : right.kind = .rightParen) :
      IsFactor (.call name.lexeme arguments) (name :: left :: (tokens ++ [right]))
  | parenthesized {left right : Token} {inner : Tree} {tokens : List Token}
      (hleft : left.kind = .leftParen) (hinner : IsExpression inner tokens)
      (hright : right.kind = .rightParen) :
      IsFactor (.parenthesized inner) (left :: (tokens ++ [right]))

/-- One or more expressions with commas between them. -/
inductive AreArguments : List Tree → List Token → Prop
  | one {argument : Tree} {tokens : List Token} (hargument : IsExpression argument tokens) :
      AreArguments [argument] tokens
  | more {argument : Tree} {arguments : List Tree} {tokens rest : List Token} {comma : Token}
      (hargument : IsExpression argument tokens) (hcomma : comma.kind = .comma)
      (hrest : AreArguments arguments rest) :
      AreArguments (argument :: arguments) (tokens ++ comma :: rest)

/-- A term: a factor, perhaps with a sign before it, and then products and quotients. -/
inductive IsTerm : Tree → List Token → Prop
  | factor {tree : Tree} {tokens : List Token} (hfactor : IsFactor tree tokens) :
      IsTerm tree tokens
  | negation {sign : Token} {tree : Tree} {tokens : List Token} (hsign : sign.kind = .minus)
      (hfactor : IsFactor tree tokens) : IsTerm (.negation tree) (sign :: tokens)
  | step {operator : Token} {op : ArithOp} {left right : Tree}
      {leftTokens rightTokens : List Token} (hleft : IsTerm left leftTokens)
      (hoperator : multiplicativeOp? operator.kind = some op)
      (hright : IsFactor right rightTokens) :
      IsTerm (.arith op left right) (leftTokens ++ operator :: rightTokens)

/-- A term, and then sums and differences. -/
inductive IsAdditive : Tree → List Token → Prop
  | term {tree : Tree} {tokens : List Token} (hterm : IsTerm tree tokens) :
      IsAdditive tree tokens
  | step {operator : Token} {op : ArithOp} {left right : Tree}
      {leftTokens rightTokens : List Token} (hleft : IsAdditive left leftTokens)
      (hoperator : additiveOp? operator.kind = some op) (hright : IsTerm right rightTokens) :
      IsAdditive (.arith op left right) (leftTokens ++ operator :: rightTokens)

/-- An expression: a block, a conditional, a sum, or a comparison of two sums. -/
inductive IsExpression : Tree → List Token → Prop
  | block {tree : Tree} {tokens : List Token} (hblock : IsBlock tree tokens) :
      IsExpression tree tokens
  | conditional {tree : Tree} {tokens : List Token} (hconditional : IsConditional tree tokens) :
      IsExpression tree tokens
  | additive {tree : Tree} {tokens : List Token} (hadditive : IsAdditive tree tokens) :
      IsExpression tree tokens
  | comparison {operator : Token} {op : CompareOp} {left right : Tree}
      {leftTokens rightTokens : List Token} (hleft : IsAdditive left leftTokens)
      (hoperator : CompareOp.ofKind? operator.kind = some op)
      (hright : IsAdditive right rightTokens) :
      IsExpression (.comparison left op right) (leftTokens ++ operator :: rightTokens)

/-- A statement that ends with a semicolon. -/
inductive IsEnded : Tree → List Token → Prop
  | declaration {word name colon equals semicolon : Token} {keyword : DeclKeyword}
      {type value : Tree} {typeTokens valueTokens : List Token}
      (hword : word.isKeyword keyword.text = true) (hname : name.kind = .identifier)
      (hcolon : colon.kind = .colon) (htype : IsType type typeTokens)
      (hequals : equals.kind = .assignment) (hvalue : IsExpression value valueTokens)
      (hsemicolon : semicolon.kind = .semicolon) :
      IsEnded (.declaration keyword name.lexeme type value)
        (word :: name :: colon :: (typeTokens ++ equals :: (valueTokens ++ [semicolon])))
  | assignment {name equals semicolon : Token} {value : Tree} {valueTokens : List Token}
      (hname : name.kind = .identifier) (hequals : equals.kind = .assignment)
      (hvalue : IsExpression value valueTokens) (hsemicolon : semicolon.kind = .semicolon) :
      IsEnded (.assignment name.lexeme value) (name :: equals :: (valueTokens ++ [semicolon]))
  | expression {expression : Tree} {tokens : List Token} {semicolon : Token}
      (hexpression : IsExpression expression tokens) (hsemicolon : semicolon.kind = .semicolon) :
      IsEnded (.statement expression) (tokens ++ [semicolon])

/-- A statement: one that ends with a semicolon, or a braced expression, which ends itself. -/
inductive IsStatement : Tree → List Token → Prop
  | ended {tree : Tree} {tokens : List Token} (hended : IsEnded tree tokens) :
      IsStatement tree tokens
  | braced {expression : Tree} {tokens : List Token} (hbraced : expression.isBraced = true)
      (hexpression : IsExpression expression tokens) : IsStatement (.statement expression) tokens

/-- Any number of statements. -/
inductive AreStatements : List Tree → List Token → Prop
  | nil : AreStatements [] []
  | cons {statement : Tree} {statements : List Tree} {tokens rest : List Token}
      (hstatement : IsStatement statement tokens) (hrest : AreStatements statements rest) :
      AreStatements (statement :: statements) (tokens ++ rest)

/-- A block: statements in braces, of which the last ends with a semicolon or an expression
follows as the result. -/
inductive IsBlock : Tree → List Token → Prop
  | empty {left right : Token} (hleft : left.kind = .leftCurly) (hright : right.kind = .rightCurly) :
      IsBlock (.block [] .absent) [left, right]
  | ended {left right : Token} {statements : List Tree} {last : Tree}
      {tokens lastTokens : List Token} (hleft : left.kind = .leftCurly)
      (hstatements : AreStatements statements tokens) (hlast : IsEnded last lastTokens)
      (hright : right.kind = .rightCurly) :
      IsBlock (.block (statements ++ [last]) .absent) (left :: (tokens ++ (lastTokens ++ [right])))
  | result {left right : Token} {statements : List Tree} {result : Tree}
      {tokens resultTokens : List Token} (hleft : left.kind = .leftCurly)
      (hstatements : AreStatements statements tokens) (hresult : IsExpression result resultTokens)
      (hright : right.kind = .rightCurly) :
      IsBlock (.block statements result) (left :: (tokens ++ (resultTokens ++ [right])))

/-- A conditional: a condition and a block, further branches, and perhaps a last block. -/
inductive IsConditional : Tree → List Token → Prop
  | branching {word : Token} {condition body otherwise : Tree} {branches : List Tree}
      {conditionTokens bodyTokens branchTokens otherwiseTokens : List Token}
      (hword : word.isKeyword "if" = true) (hcondition : IsExpression condition conditionTokens)
      (hbody : IsBlock body bodyTokens) (hbranches : AreBranches branches branchTokens)
      (hotherwise : IsOtherwise otherwise otherwiseTokens) :
      IsConditional (.conditional condition body branches otherwise)
        (word :: (conditionTokens ++ (bodyTokens ++ (branchTokens ++ otherwiseTokens))))

/-- Any number of further branches of a conditional. -/
inductive AreBranches : List Tree → List Token → Prop
  | nil : AreBranches [] []
  | cons {elseWord ifWord : Token} {condition body : Tree} {branches : List Tree}
      {conditionTokens bodyTokens rest : List Token} (helse : elseWord.isKeyword "else" = true)
      (hif : ifWord.isKeyword "if" = true) (hcondition : IsExpression condition conditionTokens)
      (hbody : IsBlock body bodyTokens) (hrest : AreBranches branches rest) :
      AreBranches (.branch condition body :: branches)
        (elseWord :: ifWord :: (conditionTokens ++ (bodyTokens ++ rest)))

/-- The last block of a conditional, or nothing. -/
inductive IsOtherwise : Tree → List Token → Prop
  | absent : IsOtherwise .absent []
  | block {word : Token} {body : Tree} {tokens : List Token}
      (hword : word.isKeyword "else" = true) (hbody : IsBlock body tokens) :
      IsOtherwise body (word :: tokens)

end

/-- A program: any number of statements. -/
inductive IsProgram : Tree → List Token → Prop
  | program {statements : List Tree} {tokens : List Token}
      (hstatements : AreStatements statements tokens) : IsProgram (.program statements) tokens

/-! ### Induction along one repetition

The relations above refer to one another. Most arguments follow only one of them along its own
repetition, for which these are the principles.
-/

@[elab_as_elim]
theorem AreParameters.induct {motive : ∀ trees tokens, AreParameters trees tokens → Prop}
    (one : ∀ {parameter : Tree} {tokens : List Token} (hparameter : IsParameter parameter tokens),
      motive _ _ (.one hparameter))
    (more : ∀ {parameter : Tree} {parameters : List Tree} {tokens rest : List Token} {comma : Token}
      (hparameter : IsParameter parameter tokens) (hcomma : comma.kind = .comma)
      (hrest : AreParameters parameters rest), motive _ _ hrest →
        motive _ _ (.more hparameter hcomma hrest))
    {trees : List Tree} {tokens : List Token} (h : AreParameters trees tokens) :
    motive trees tokens h := by
  match h with
  | .one hparameter => exact one hparameter
  | .more hparameter hcomma hrest =>
    exact more hparameter hcomma hrest (AreParameters.induct one more hrest)

@[elab_as_elim]
theorem AreArguments.induct {motive : ∀ trees tokens, AreArguments trees tokens → Prop}
    (one : ∀ {argument : Tree} {tokens : List Token} (hargument : IsExpression argument tokens),
      motive _ _ (.one hargument))
    (more : ∀ {argument : Tree} {arguments : List Tree} {tokens rest : List Token} {comma : Token}
      (hargument : IsExpression argument tokens) (hcomma : comma.kind = .comma)
      (hrest : AreArguments arguments rest), motive _ _ hrest →
        motive _ _ (.more hargument hcomma hrest))
    {trees : List Tree} {tokens : List Token} (h : AreArguments trees tokens) :
    motive trees tokens h := by
  match h with
  | .one hargument => exact one hargument
  | .more hargument hcomma hrest =>
    exact more hargument hcomma hrest (AreArguments.induct one more hrest)

@[elab_as_elim]
theorem IsTerm.induct {motive : ∀ tree tokens, IsTerm tree tokens → Prop}
    (factor : ∀ {tree : Tree} {tokens : List Token} (hfactor : IsFactor tree tokens),
      motive _ _ (.factor hfactor))
    (negation : ∀ {sign : Token} {tree : Tree} {tokens : List Token} (hsign : sign.kind = .minus)
      (hfactor : IsFactor tree tokens), motive _ _ (.negation hsign hfactor))
    (step : ∀ {operator : Token} {op : ArithOp} {left right : Tree}
      {leftTokens rightTokens : List Token} (hleft : IsTerm left leftTokens)
      (hoperator : multiplicativeOp? operator.kind = some op) (hright : IsFactor right rightTokens),
        motive _ _ hleft → motive _ _ (.step hleft hoperator hright))
    {tree : Tree} {tokens : List Token} (h : IsTerm tree tokens) : motive tree tokens h := by
  match h with
  | .factor hfactor => exact factor hfactor
  | .negation hsign hfactor => exact negation hsign hfactor
  | .step hleft hoperator hright =>
    exact step hleft hoperator hright (IsTerm.induct factor negation step hleft)

@[elab_as_elim]
theorem IsAdditive.induct {motive : ∀ tree tokens, IsAdditive tree tokens → Prop}
    (term : ∀ {tree : Tree} {tokens : List Token} (hterm : IsTerm tree tokens),
      motive _ _ (.term hterm))
    (step : ∀ {operator : Token} {op : ArithOp} {left right : Tree}
      {leftTokens rightTokens : List Token} (hleft : IsAdditive left leftTokens)
      (hoperator : additiveOp? operator.kind = some op) (hright : IsTerm right rightTokens),
        motive _ _ hleft → motive _ _ (.step hleft hoperator hright))
    {tree : Tree} {tokens : List Token} (h : IsAdditive tree tokens) : motive tree tokens h := by
  match h with
  | .term hterm => exact term hterm
  | .step hleft hoperator hright =>
    exact step hleft hoperator hright (IsAdditive.induct term step hleft)

@[elab_as_elim]
theorem AreStatements.induct {motive : ∀ trees tokens, AreStatements trees tokens → Prop}
    (nil : motive _ _ .nil)
    (cons : ∀ {statement : Tree} {statements : List Tree} {tokens rest : List Token}
      (hstatement : IsStatement statement tokens) (hrest : AreStatements statements rest),
        motive _ _ hrest → motive _ _ (.cons hstatement hrest))
    {trees : List Tree} {tokens : List Token} (h : AreStatements trees tokens) :
    motive trees tokens h := by
  match h with
  | .nil => exact nil
  | .cons hstatement hrest =>
    exact cons hstatement hrest (AreStatements.induct nil cons hrest)

@[elab_as_elim]
theorem AreBranches.induct {motive : ∀ trees tokens, AreBranches trees tokens → Prop}
    (nil : motive _ _ .nil)
    (cons : ∀ {elseWord ifWord : Token} {condition body : Tree} {branches : List Tree}
      {conditionTokens bodyTokens rest : List Token} (helse : elseWord.isKeyword "else" = true)
      (hif : ifWord.isKeyword "if" = true) (hcondition : IsExpression condition conditionTokens)
      (hbody : IsBlock body bodyTokens) (hrest : AreBranches branches rest),
        motive _ _ hrest → motive _ _ (.cons helse hif hcondition hbody hrest))
    {trees : List Tree} {tokens : List Token} (h : AreBranches trees tokens) :
    motive trees tokens h := by
  match h with
  | .nil => exact nil
  | .cons helse hif hcondition hbody hrest =>
    exact cons helse hif hcondition hbody hrest (AreBranches.induct nil cons hrest)

/-! ### Levels of nesting -/

namespace Tree

mutual

/-- The greatest number of levels that lie one inside the other in a tree: every whole expression
(the expression of a statement, a declared or assigned value, what stands in parentheses, an
argument, a condition, the result of a block) is one level, and so is every function type. -/
def nesting : Tree → Nat
  | program statements => nestings statements
  | declaration _ _ type value => max (nesting type) (nesting value + 1)
  | assignment _ value => nesting value + 1
  | statement expression => nesting expression + 1
  | arith _ left right => max (nesting left) (nesting right)
  | comparison left _ right => max (nesting left) (nesting right)
  | call _ arguments => argumentNestings arguments
  | block statements result =>
    max (nestings statements) (if result.isPresent then nesting result + 1 else 0)
  | branch condition body => max (nesting condition + 1) (nesting body)
  | conditional condition body branches otherwise =>
    max (nesting condition + 1) (max (nesting body) (max (nestings branches) (nesting otherwise)))
  | negation factor => nesting factor
  | parenthesized expression => nesting expression + 1
  | functionType parameters result => max (nestings parameters) (nesting result) + 1
  | parameter _ type => nesting type
  | _ => 0

/-- The greatest number of levels in several trees. -/
def nestings : List Tree → Nat
  | [] => 0
  | tree :: rest => max (nesting tree) (nestings rest)

/-- The greatest number of levels in several trees that are whole expressions. -/
def argumentNestings : List Tree → Nat
  | [] => 0
  | tree :: rest => max (nesting tree + 1) (argumentNestings rest)

end

theorem nestings_append (first second : List Tree) :
    nestings (first ++ second) = max (nestings first) (nestings second) := by
  induction first with
  | nil => simp [nestings]
  | cons tree rest ih => simp [nestings, ih, Nat.max_assoc]

/-! ### Tiers of binding -/

/-- Whether a node is one that a factor can be. -/
def isFactor : Tree → Bool
  | literal _ | integer _ | float _ | identifier _ | call .. | parenthesized _ => true
  | _ => false

/-- Whether a node is one that a term can be. -/
def isTerm : Tree → Bool
  | negation _ | arith .product _ _ | arith .quotient _ _ => true
  | tree => tree.isFactor

/-- Whether a node is one that a sum of terms can be. -/
def isAdditive : Tree → Bool
  | arith .sum _ _ | arith .difference _ _ => true
  | tree => tree.isTerm

/-- Whether the operands of an arithmetic operation keep to its tier. -/
def operandsTiered : ArithOp → Tree → Tree → Bool
  | .sum, left, right | .difference, left, right => left.isAdditive && right.isTerm
  | .product, left, right | .quotient, left, right => left.isTerm && right.isFactor

mutual

/-- Whether all operands in a tree keep to their tiers: to the right of a sum or difference stands a
term, to the right of a product or quotient a factor, a comparison has sums on both sides, and a
sign is put before a factor and is itself only a term. -/
def tiered : Tree → Bool
  | program statements => allTiered statements
  | declaration _ _ _ value => tiered value
  | assignment _ value => tiered value
  | statement expression => tiered expression
  | arith op left right => operandsTiered op left right && tiered left && tiered right
  | comparison left _ right =>
    left.isAdditive && right.isAdditive && tiered left && tiered right
  | call _ arguments => allTiered arguments
  | block statements result => allTiered statements && tiered result
  | branch condition body => tiered condition && tiered body
  | conditional condition body branches otherwise =>
    tiered condition && tiered body && allTiered branches && tiered otherwise
  | negation factor => factor.isFactor && tiered factor
  | parenthesized expression => tiered expression
  | _ => true

/-- Whether the operands in several trees keep to their tiers. -/
def allTiered : List Tree → Bool
  | [] => true
  | tree :: rest => tiered tree && allTiered rest

end

theorem allTiered_append (first second : List Tree) :
    allTiered (first ++ second) = (allTiered first && allTiered second) := by
  induction first with
  | nil => simp [allTiered]
  | cons tree rest ih => simp [allTiered, ih, Bool.and_assoc]

theorem isTerm_of_isFactor {tree : Tree} (hfactor : tree.isFactor = true) :
    tree.isTerm = true := by
  cases tree <;> simp_all [isTerm, isFactor]

theorem isAdditive_of_isTerm {tree : Tree} (hterm : tree.isTerm = true) :
    tree.isAdditive = true := by
  cases tree with
  | arith op left right => cases op <;> simp_all [isAdditive, isTerm]
  | _ => simp_all [isAdditive]

theorem isBraced_of_isAdditive {tree : Tree} (hadditive : tree.isAdditive = true) :
    tree.isBraced = false := by
  cases tree <;> simp_all [isBraced, isAdditive, isTerm, isFactor]

end Tree

theorem multiplicativeOp?_eq_some {kind : TokenKind} {op : ArithOp}
    (hop : multiplicativeOp? kind = some op) : op = .product ∨ op = .quotient := by
  cases kind <;> simp_all [multiplicativeOp?, eq_comm]

theorem additiveOp?_eq_some {kind : TokenKind} {op : ArithOp} (hop : additiveOp? kind = some op) :
    op = .sum ∨ op = .difference := by
  cases kind <;> simp_all [additiveOp?, eq_comm]

/-- The number of an integer or floating-point literal is a number. -/
theorem Token.isNumber_of_number? {token : Token} {number : Tree}
    (hnumber : token.number? = some number) : number.isNumber = true := by
  simp only [Token.number?, Option.bind_eq_bind, Option.bind_eq_some_iff] at hnumber
  obtain ⟨text, -, hnumber⟩ := hnumber
  split at hnumber
  · obtain ⟨value, -, hnumber⟩ := Option.bind_eq_some_iff.mp hnumber
    split at hnumber
    · cases hnumber
      rfl
    · cases hnumber
  · obtain ⟨value, -, hnumber⟩ := Option.bind_eq_some_iff.mp hnumber
    cases hnumber
    rfl

theorem Tree.isFactor_of_isNumber {tree : Tree} (hnumber : tree.isNumber = true) :
    tree.isFactor = true ∧ tree.tiered = true := by
  cases tree <;> simp_all [Tree.isNumber, Tree.isFactor, Tree.tiered]

/-! ### Derived trees keep to their tiers -/

mutual

theorem IsFactor.tiered {tree : Tree} {tokens : List Token} (h : IsFactor tree tokens) :
    tree.isFactor = true ∧ tree.tiered = true := by
  match h with
  | .literal _ => exact ⟨rfl, rfl⟩
  | .number _ hnumber => exact Tree.isFactor_of_isNumber (Token.isNumber_of_number? hnumber)
  | .identifier _ => exact ⟨rfl, rfl⟩
  | .emptyCall .. => exact ⟨rfl, rfl⟩
  | .call _ _ harguments _ => exact ⟨rfl, harguments.tiered⟩
  | .parenthesized _ hinner _ => exact ⟨rfl, hinner.tiered⟩

theorem AreArguments.tiered {trees : List Tree} {tokens : List Token}
    (h : AreArguments trees tokens) : Tree.allTiered trees = true := by
  match h with
  | .one hargument => simp [Tree.allTiered, hargument.tiered]
  | .more hargument _ hrest => simp [Tree.allTiered, hargument.tiered, hrest.tiered]

theorem IsTerm.tiered {tree : Tree} {tokens : List Token} (h : IsTerm tree tokens) :
    tree.isTerm = true ∧ tree.tiered = true := by
  match h with
  | .factor hfactor => exact ⟨Tree.isTerm_of_isFactor hfactor.tiered.1, hfactor.tiered.2⟩
  | .negation _ hfactor => exact ⟨rfl, by simp [Tree.tiered, hfactor.tiered]⟩
  | .step hleft hoperator hright =>
    obtain ⟨hleftTerm, hleftTiered⟩ := hleft.tiered
    obtain ⟨hrightFactor, hrightTiered⟩ := hright.tiered
    rcases multiplicativeOp?_eq_some hoperator with rfl | rfl <;>
      exact ⟨rfl, by simp [Tree.tiered, Tree.operandsTiered, *]⟩

theorem IsAdditive.tiered {tree : Tree} {tokens : List Token} (h : IsAdditive tree tokens) :
    tree.isAdditive = true ∧ tree.tiered = true := by
  match h with
  | .term hterm => exact ⟨Tree.isAdditive_of_isTerm hterm.tiered.1, hterm.tiered.2⟩
  | .step hleft hoperator hright =>
    obtain ⟨hleftAdditive, hleftTiered⟩ := hleft.tiered
    obtain ⟨hrightTerm, hrightTiered⟩ := hright.tiered
    rcases additiveOp?_eq_some hoperator with rfl | rfl <;>
      exact ⟨rfl, by simp [Tree.tiered, Tree.operandsTiered, *]⟩

theorem IsExpression.tiered {tree : Tree} {tokens : List Token} (h : IsExpression tree tokens) :
    tree.tiered = true := by
  match h with
  | .block hblock => exact hblock.tiered
  | .conditional hconditional => exact hconditional.tiered
  | .additive hadditive => exact hadditive.tiered.2
  | .comparison hleft _ hright => simp [Tree.tiered, hleft.tiered, hright.tiered]

theorem IsEnded.tiered {tree : Tree} {tokens : List Token} (h : IsEnded tree tokens) :
    tree.tiered = true := by
  match h with
  | .declaration _ _ _ _ _ hvalue _ => exact hvalue.tiered
  | .assignment _ _ hvalue _ => exact hvalue.tiered
  | .expression hexpression _ => exact hexpression.tiered

theorem IsStatement.tiered {tree : Tree} {tokens : List Token} (h : IsStatement tree tokens) :
    tree.tiered = true := by
  match h with
  | .ended hended => exact hended.tiered
  | .braced _ hexpression => exact hexpression.tiered

theorem AreStatements.tiered {trees : List Tree} {tokens : List Token}
    (h : AreStatements trees tokens) : Tree.allTiered trees = true := by
  match h with
  | .nil => rfl
  | .cons hstatement hrest => simp [Tree.allTiered, hstatement.tiered, hrest.tiered]

theorem IsBlock.tiered {tree : Tree} {tokens : List Token} (h : IsBlock tree tokens) :
    tree.tiered = true := by
  match h with
  | .empty .. => rfl
  | .ended _ hstatements hlast _ =>
    simp [Tree.tiered, Tree.allTiered_append, Tree.allTiered, hstatements.tiered, hlast.tiered]
  | .result _ hstatements hresult _ => simp [Tree.tiered, hstatements.tiered, hresult.tiered]

theorem IsConditional.tiered {tree : Tree} {tokens : List Token} (h : IsConditional tree tokens) :
    tree.tiered = true := by
  match h with
  | .branching _ hcondition hbody hbranches hotherwise =>
    simp [Tree.tiered, hcondition.tiered, hbody.tiered, hbranches.tiered, hotherwise.tiered]

theorem AreBranches.tiered {trees : List Tree} {tokens : List Token} (h : AreBranches trees tokens) :
    Tree.allTiered trees = true := by
  match h with
  | .nil => rfl
  | .cons _ _ hcondition hbody hrest =>
    simp [Tree.allTiered, Tree.tiered, hcondition.tiered, hbody.tiered, hrest.tiered]

theorem IsOtherwise.tiered {tree : Tree} {tokens : List Token} (h : IsOtherwise tree tokens) :
    tree.tiered = true := by
  match h with
  | .absent => rfl
  | .block _ hbody => exact hbody.tiered

end

/-- The operands in the tree of a program keep to their tiers. -/
theorem IsProgram.tiered {tree : Tree} {tokens : List Token} (h : IsProgram tree tokens) :
    tree.tiered = true := by
  cases h with
  | program hstatements => exact hstatements.tiered

end LetLang
