import LetLang.Proofs.Grammar.Backtracking
import LetLang.Proofs.Grammar.Phrases

/-!
# What is derived is read

The tokens of a derived program are read as that program if it keeps to the limit of nesting, and
otherwise parsing stops at one of them with the error that they nest too deep (`predict_complete`).

A level of readers that reads what is derived (`CompleteLevel`) carries every rule above it: only
chains of operators, lists, branches and statements repeat at the same level, and each of these is an
induction on the derivation. A chain leans to the left in the tree while it is read from left to
right, so what is shown of it is that reading the whole comes to the loop after the last operand
(`meets_term_chain`).
-/

set_option autoImplicit false

namespace LetLang

/-- A level that reads what is derived, as far as its levels and the number of tokens allow. -/
structure CompleteLevel (rounds : Nat) (level : ReaderLevel) (levels : Nat) : Prop where
  type : ∀ {tree : Tree} {tokens rest : List Token}, IsType tree tokens →
    (tokens ++ rest).length ≤ rounds →
      Meets levels tree.nesting tokens rest level.type (.ok tree rest)
  expression : ∀ {tree : Tree} {tokens rest : List Token}, IsExpression tree tokens →
    Ends tree rest → (tokens ++ rest).length ≤ rounds →
      Meets levels (tree.nesting + 1) tokens rest level.expression (.ok tree rest)

/-! ### Factors -/

theorem AreArguments.listed {trees : List Tree} {tokens : List Token}
    (h : AreArguments trees tokens) : Separated IsExpression trees tokens := by
  induction h using AreArguments.induct with
  | one hargument => exact .one hargument
  | more hargument hcomma _ ih => exact .more hargument hcomma ih

section

variable {rounds levels : Nat} {level : ReaderLevel} {tree : Tree} {token : Token}
  {tokens rest : List Token}

theorem factor_literal (hkind : token.kind = .numberLiteral) :
    Reader.factor rounds level (token :: rest) = .ok (.literal token.lexeme) rest := by
  unfold Reader.factor
  rw [Run.get_bind, List.head?_cons]
  simp only [hkind]
  rfl

theorem factor_number {number : Tree}
    (hkind : token.kind = .integerLiteral ∨ token.kind = .floatLiteral)
    (hnumber : token.number? = some number) :
    Reader.factor rounds level (token :: rest) = .ok number rest := by
  unfold Reader.factor
  rw [Run.get_bind, List.head?_cons]
  rcases hkind with hkind | hkind <;>
  · simp only [hkind, TokenKind.isLiteral, Reader.typedLiteral, hnumber]
    rfl

theorem factor_identifier (hkind : token.kind = .identifier)
    (hnext : Reader.nextIs .leftParen rest = false) :
    Reader.factor rounds level (token :: rest) = .ok (.identifier token.lexeme) rest := by
  unfold Reader.factor
  rw [Run.get_bind, List.head?_cons]
  simp only [hkind, TokenKind.isLiteral]
  refine (Run.bind_of_ok Reader.skip_cons).trans ?_
  rw [Run.get_bind, hnext]
  rfl

theorem factor_call (hkind : token.kind = .identifier)
    (hnext : Reader.nextIs .leftParen rest = true) :
    Reader.factor rounds level (token :: rest) =
      (do return Tree.call token.lexeme (← Reader.listed rounds level.expression)) rest := by
  unfold Reader.factor
  rw [Run.get_bind, List.head?_cons]
  simp only [hkind, TokenKind.isLiteral]
  refine (Run.bind_of_ok Reader.skip_cons).trans ?_
  rw [Run.get_bind, hnext]
  rfl

theorem factor_parenthesized (hkind : token.kind = .leftParen) :
    Reader.factor rounds level (token :: rest) = (do
      let inner ← level.expression
      let _ ← Reader.expect .rightParen
      return Tree.parenthesized inner) rest := by
  unfold Reader.factor
  rw [Run.get_bind, List.head?_cons]
  simp only [hkind, TokenKind.isLiteral]
  rfl

variable (hlevel : CompleteLevel rounds level levels)

include hlevel

theorem meets_argument :
    MeetsItem rounds levels level.expression IsExpression (·.nesting + 1) := by
  have hends : ∀ {token : Token} (tree : Tree) (rest : List Token),
      token.kind = .comma ∨ token.kind = .rightParen → Ends tree (token :: rest) := by
    intro token tree rest htoken
    rcases htoken with htoken | htoken
    · exact ends_cons tree rest (by rw [htoken]; rfl) (by simp [htoken])
    · exact ends_cons tree rest (by rw [htoken]; rfl) (by simp [htoken])
  constructor
  · intro tree tokens token rest htree htoken
    exact (htree.opens (hends tree rest htoken)).starts.notParen
  · intro tree tokens token rest htree htoken hroom
    exact hlevel.expression htree (hends tree rest htoken) hroom

theorem meets_call {name : Token} {arguments : List Tree} (hname : name.kind = .identifier)
    (harguments : Listed IsExpression arguments tokens)
    (hroom : (name :: tokens ++ rest).length ≤ rounds) :
    Meets levels (Tree.argumentNestings arguments) (name :: tokens) rest
      (Reader.factor rounds level) (.ok (.call name.lexeme arguments) rest) := by
  have hnext : Reader.nextIs .leftParen (tokens ++ rest) = true := by
    cases harguments with
    | none hleft => simpa using hleft
    | some hleft => simpa using hleft
  refine Meets.push (factor_call hname hnext) ?_
  refine (meets_listed Tree.argumentNestings (meets_argument hlevel) (fun _ _ ↦ rfl) rfl harguments ?_).bindOk
  simp only [List.cons_append, List.length_cons] at hroom
  omega

theorem meets_factor (h : IsFactor tree tokens) (hloose : Loose 4 rest)
    (hroom : (tokens ++ rest).length ≤ rounds) :
    Meets levels tree.nesting tokens rest (Reader.factor rounds level) (.ok tree rest) := by
  cases h with
  | literal hkind => exact Meets.of_eq (factor_literal hkind)
  | number hkind hnumber =>
    rw [Tree.nesting_of_isNumber (Token.isNumber_of_number? hnumber)]
    exact Meets.of_eq (factor_number hkind hnumber)
  | identifier hkind =>
    exact Meets.of_eq (factor_identifier hkind (hloose.nextIs (Nat.le_refl 4)))
  | emptyCall hname hleft hright => exact meets_call hlevel hname (.none hleft hright) hroom
  | call hname hleft harguments hright =>
    exact meets_call hlevel hname (.some hleft harguments.listed hright) hroom
  | @parenthesized left right inner tokens hleft hinner hright =>
    have hroom' : (tokens ++ right :: rest).length ≤ rounds := by
      simp only [List.cons_append, List.append_assoc, List.nil_append, List.length_cons,
        List.length_append] at hroom ⊢
      omega
    have hends : Ends inner (right :: rest) :=
      ends_cons inner rest (by rw [hright]; rfl) (by simp [hright])
    refine Meets.push (factor_parenthesized hleft) ?_
    exact Meets.bindEq (hlevel.expression hinner hends hroom')
      (Run.bind_of_ok (Reader.expect_cons hright))

end

/-! ### Chains -/

section

variable {operation? : TokenKind → Option ArithOp} {operand reader : Reader Tree} {left right : Tree}
  {levels need more : Nat} {leftTokens rightTokens rest : List Token} {operator : Token}

theorem chain_of_no_operator (hnext : rest.head?.bind (operation? ·.kind) = none) (fuel : Nat) :
    Reader.chain operation? operand fuel left rest = .ok left rest := by
  cases fuel with
  | zero => rfl
  | succ fuel =>
    rw [Reader.chain, Run.get_bind, hnext]
    rfl

theorem chain_of_operator {op : ArithOp} (hoperator : operation? operator.kind = some op)
    (fuel : Nat) : Reader.chain operation? operand (fuel + 1) left (operator :: rest) = (do
      let right ← operand
      Reader.chain operation? operand fuel (.arith op left right)) rest := by
  rw [Reader.chain, Run.get_bind, List.head?_cons, Option.bind_some, hoperator]
  rfl

/-- Reading the tokens comes to the loop of a chain after the tree, with enough rounds for the
rest. -/
def ReachesChain (levels : Nat) (operation? : TokenKind → Option ArithOp) (operand : Reader Tree)
    (reader : Reader Tree) (tree : Tree) (need : Nat) (tokens rest : List Token) : Prop :=
  ∃ fuel, rest.length ≤ fuel ∧
    Meets levels need tokens rest reader (Reader.chain operation? operand fuel tree rest)

/-- One operator and one operand further, the loop is reached again. -/
theorem ReachesChain.step {op : ArithOp}
    (hleft : ReachesChain levels operation? operand reader left need leftTokens
      (operator :: rightTokens ++ rest))
    (hoperator : operation? operator.kind = some op)
    (hright : Meets levels more rightTokens rest operand (.ok right rest)) :
    ReachesChain levels operation? operand reader (.arith op left right) (max need more)
      (leftTokens ++ operator :: rightTokens) rest := by
  obtain ⟨fuel, hfuel, hmeets⟩ := hleft
  rw [List.cons_append, List.length_cons, List.length_append] at hfuel
  obtain ⟨fuel, rfl⟩ : ∃ less, fuel = less + 1 := ⟨fuel - 1, by omega⟩
  refine ⟨fuel, by omega, hmeets.trans ?_⟩
  exact Meets.push (chain_of_operator hoperator fuel) hright.bindOk

theorem ReachesChain.done {tree : Tree} {tokens : List Token}
    (hreaches : ReachesChain levels operation? operand reader tree need tokens rest)
    (hnext : rest.head?.bind (operation? ·.kind) = none) :
    Meets levels need tokens rest reader (.ok tree rest) := by
  obtain ⟨fuel, -, hmeets⟩ := hreaches
  exact hmeets.finish (chain_of_no_operator hnext fuel)

end

section

variable {rounds levels : Nat} {level : ReaderLevel} (hlevel : CompleteLevel rounds level levels)

include hlevel

theorem reachesChain_term {tree : Tree} {tokens rest : List Token} (h : IsTerm tree tokens)
    (hloose : Loose 4 rest) (hroom : (tokens ++ rest).length ≤ rounds) :
    ReachesChain levels multiplicativeOp? (Reader.factor rounds level) (Reader.term rounds level)
      tree tree.nesting tokens rest := by
  induction h using IsTerm.induct generalizing rest with
  | @factor tree tokens hfactor =>
    have hrest : rest.length ≤ rounds := by
      rw [List.length_append] at hroom
      omega
    have hminus : Reader.nextIs .minus (tokens ++ rest) = false := by
      obtain ⟨token, others, rfl, hopens, -⟩ := hfactor.head
      simpa using (Bool.and_eq_true_iff.mp hopens).2
    refine ⟨rounds, hrest, ?_⟩
    refine Meets.congr (meets_factor hlevel hfactor hloose hroom).bindOk ?_
    exact Run.bind_of_ok (Reader.accept_of_not hminus)
  | negation hsign hfactor =>
    rw [List.cons_append, List.length_cons] at hroom
    have hrest : rest.length ≤ rounds := by
      rw [List.length_append] at hroom
      omega
    refine ⟨rounds, hrest, Meets.push (Run.bind_of_ok (Reader.accept_cons hsign)) ?_⟩
    exact (meets_factor hlevel hfactor hloose (Nat.le_of_succ_le hroom)).bindOk
  | @step operator op left right leftTokens rightTokens hleft hoperator hright ih =>
    rw [List.append_assoc] at hroom
    have hloose' : Loose 4 (operator :: rightTokens ++ rest) :=
      loose_cons (by rw [TokenKind.grip_of_multiplicativeOp? hoperator]; decide)
    have hroom' : (rightTokens ++ rest).length ≤ rounds := by
      rw [List.length_append, List.cons_append, List.length_cons] at hroom
      omega
    exact (ih hloose' hroom).step hoperator
      (meets_factor hlevel hright hloose hroom')

theorem meets_term {tree : Tree} {tokens rest : List Token} (h : IsTerm tree tokens)
    (hloose : Loose 3 rest) (hroom : (tokens ++ rest).length ≤ rounds) :
    Meets levels tree.nesting tokens rest (Reader.term rounds level) (.ok tree rest) := by
  refine (reachesChain_term hlevel h (hloose.mono (by decide)) hroom).done ?_
  exact hloose.no_operator fun hop ↦ Nat.le_of_eq (TokenKind.grip_of_multiplicativeOp? hop).symm

theorem reachesChain_additive {tree : Tree} {tokens rest : List Token} (h : IsAdditive tree tokens)
    (hloose : Loose 3 rest) (hroom : (tokens ++ rest).length ≤ rounds) :
    ReachesChain levels additiveOp? (Reader.term rounds level) (Reader.additive rounds level)
      tree tree.nesting tokens rest := by
  induction h using IsAdditive.induct generalizing rest with
  | term hterm =>
    have hrest : rest.length ≤ rounds := by
      rw [List.length_append] at hroom
      omega
    exact ⟨rounds, hrest, (meets_term hlevel hterm hloose hroom).bindOk⟩
  | @step operator op left right leftTokens rightTokens hleft hoperator hright ih =>
    rw [List.append_assoc] at hroom
    have hloose' : Loose 3 (operator :: rightTokens ++ rest) :=
      loose_cons (by rw [TokenKind.grip_of_additiveOp? hoperator]; decide)
    have hroom' : (rightTokens ++ rest).length ≤ rounds := by
      rw [List.length_append, List.cons_append, List.length_cons] at hroom
      omega
    exact (ih hloose' hroom).step hoperator
      (meets_term hlevel hright hloose hroom')

theorem meets_additive {tree : Tree} {tokens rest : List Token} (h : IsAdditive tree tokens)
    (hloose : Loose 2 rest) (hroom : (tokens ++ rest).length ≤ rounds) :
    Meets levels tree.nesting tokens rest (Reader.additive rounds level) (.ok tree rest) := by
  refine (reachesChain_additive hlevel h (hloose.mono (by decide)) hroom).done ?_
  exact hloose.no_operator fun hop ↦ Nat.le_of_eq (TokenKind.grip_of_additiveOp? hop).symm

/-! ### Comparisons -/

theorem meets_sum {tree : Tree} {tokens rest : List Token} (h : IsAdditive tree tokens)
    (hloose : Loose 1 rest) (hroom : (tokens ++ rest).length ≤ rounds) :
    Meets levels tree.nesting tokens rest (Reader.comparison rounds level) (.ok tree rest) := by
  have hnext : rest.head?.bind (CompareOp.ofKind? ·.kind) = none :=
    hloose.no_operator fun hop ↦ Nat.le_of_eq (TokenKind.grip_of_compareOp? hop).symm
  refine (meets_additive hlevel h (hloose.mono (by decide)) hroom).bindOk.finish ?_
  rw [Run.get_bind, hnext]
  rfl

theorem meets_comparison {left right : Tree} {op : CompareOp} {operator : Token}
    {leftTokens rightTokens rest : List Token} (hleft : IsAdditive left leftTokens)
    (hoperator : CompareOp.ofKind? operator.kind = some op) (hright : IsAdditive right rightTokens)
    (hloose : Loose 1 rest) (hroom : (leftTokens ++ operator :: rightTokens ++ rest).length ≤ rounds) :
    Meets levels (max left.nesting right.nesting) (leftTokens ++ operator :: rightTokens) rest
      (Reader.comparison rounds level) (.ok (.comparison left op right) rest) := by
  rw [List.append_assoc] at hroom
  have hloose' : Loose 2 (operator :: rightTokens ++ rest) :=
    loose_cons (by rw [TokenKind.grip_of_compareOp? hoperator]; decide)
  have hroom' : (rightTokens ++ rest).length ≤ rounds := by
    rw [List.length_append, List.cons_append, List.length_cons] at hroom
    omega
  have hlast : Meets levels right.nesting rightTokens rest (do
      let right ← Reader.additive rounds level
      return Tree.comparison left op right) (.ok (.comparison left op right) rest) :=
    (meets_additive hlevel hright (hloose.mono (by decide)) hroom').bindOk
  refine Meets.bind (meets_additive hlevel hleft hloose' hroom) (Meets.push ?_ hlast)
  rw [Run.get_bind, List.head?_cons, Option.bind_some, hoperator]
  rfl

end

/-! ### Statements -/

section

variable {level : ReaderLevel} {input : List Token}

theorem statement_declaration {keyword : DeclKeyword}
    (hkeyword : Reader.declKeyword? input = some keyword) :
    Reader.statement level input = Reader.declaration level keyword input := by
  rw [Reader.statement, Run.get_bind, hkeyword]

theorem statement_assignment (hkeyword : Reader.declKeyword? input = none)
    (hstarts : Reader.startsAssignment input = true) :
    Reader.statement level input = Reader.assignment level input := by
  rw [Reader.statement, Run.get_bind, hkeyword]
  simp only [Run.get_bind, hstarts, if_true]

theorem statement_expression (hopens : Opens input) :
    Reader.statement level input = Reader.expressionStatement level input := by
  rw [Reader.statement, Run.get_bind, hopens.noDeclaration]
  simp only [Run.get_bind, hopens.noAssignment]
  rfl

variable {fuel : Nat} (hstarts : Starts input)

include hstarts

theorem elements_declaration {keyword : DeclKeyword}
    (hkeyword : Reader.declKeyword? input = some keyword) :
    Reader.elements level (fuel + 1) input = (do
      let first ← Reader.declaration level keyword
      Reader.prepend first (Reader.elements level fuel)) input := by
  rw [Reader.elements, Run.get_bind, Run.get_bind,
    if_neg (by simp [hstarts.notCurly, hstarts.notEnd]), Run.get_bind, hkeyword]

theorem elements_assignment (hkeyword : Reader.declKeyword? input = none)
    (hassignment : Reader.startsAssignment input = true) :
    Reader.elements level (fuel + 1) input = (do
      let first ← Reader.assignment level
      Reader.prepend first (Reader.elements level fuel)) input := by
  rw [Reader.elements, Run.get_bind, Run.get_bind,
    if_neg (by simp [hstarts.notCurly, hstarts.notEnd]), Run.get_bind, hkeyword]
  simp only [Run.get_bind, hassignment, if_true]

omit hstarts in
theorem elements_expression (hopens : Opens input) :
    Reader.elements level (fuel + 1) input = (do
      let expression ← level.expression
      Reader.afterExpression expression (Reader.elements level fuel)) input := by
  rw [Reader.elements, Run.get_bind, Run.get_bind,
    if_neg (by simp [hopens.starts.notCurly, hopens.starts.notEnd]), Run.get_bind,
    hopens.noDeclaration]
  simp only [Run.get_bind, hopens.noAssignment]
  rfl

end

theorem declKeyword?_of_isKeyword {word : Token} {keyword : DeclKeyword}
    (hword : word.isKeyword keyword.text = true) (rest : List Token) :
    Reader.declKeyword? (word :: rest) = some keyword := by
  simp only [Token.isKeyword, Bool.and_eq_true, beq_iff_eq] at hword
  cases keyword <;> simp [Reader.declKeyword?, Token.isKeyword, hword, DeclKeyword.text]

theorem declKeyword?_of_identifier {name : Token} (hname : name.kind = .identifier)
    (rest : List Token) : Reader.declKeyword? (name :: rest) = none := by
  simp [Reader.declKeyword?, Token.isKeyword, hname]

theorem startsAssignment_cons {name equals : Token} (hname : name.kind = .identifier)
    (hequals : equals.kind = .assignment) (rest : List Token) :
    Reader.startsAssignment (name :: equals :: rest) = true := by
  simp [Reader.startsAssignment, Reader.secondIs, hname, hequals]

/-- Every expression ends before a semicolon. -/
theorem ends_semicolon {semicolon : Token} (tree : Tree) (rest : List Token)
    (hsemicolon : semicolon.kind = .semicolon) : Ends tree (semicolon :: rest) :=
  ends_cons tree rest (by rw [hsemicolon]; rfl) (by simp [hsemicolon])

section

variable {rounds levels : Nat} {level : ReaderLevel} (hlevel : CompleteLevel rounds level levels)

include hlevel

/-- A whole expression and the semicolon after it. -/
theorem meets_ended {β : Type} {tree : Tree} {tokens rest : List Token} {semicolon : Token}
    {next : Tree → Reader β} {value : β} (h : IsExpression tree tokens)
    (hsemicolon : semicolon.kind = .semicolon)
    (hnext : next tree (semicolon :: rest) = .ok value rest)
    (hroom : (tokens ++ [semicolon] ++ rest).length ≤ rounds) :
    Meets levels (tree.nesting + 1) (tokens ++ [semicolon]) rest (level.expression >>= next)
      (.ok value rest) := by
  rw [List.append_assoc] at hroom
  exact Meets.bindEq (hlevel.expression h (ends_semicolon tree rest hsemicolon) hroom) hnext

theorem meets_declaration {word name colon equals semicolon : Token} {keyword : DeclKeyword}
    {type value : Tree} {typeTokens valueTokens rest : List Token}
    (hname : name.kind = .identifier) (hcolon : colon.kind = .colon)
    (htype : IsType type typeTokens) (hequals : equals.kind = .assignment)
    (hvalue : IsExpression value valueTokens) (hsemicolon : semicolon.kind = .semicolon)
    (hroom : (word :: name :: colon :: (typeTokens ++ equals :: (valueTokens ++ [semicolon])) ++
      rest).length ≤ rounds) :
    Meets levels (max type.nesting (value.nesting + 1))
      (word :: name :: colon :: (typeTokens ++ equals :: (valueTokens ++ [semicolon]))) rest
      (Reader.declaration level keyword) (.ok (.declaration keyword name.lexeme type value) rest) := by
  have hroom' : (typeTokens ++ (equals :: (valueTokens ++ [semicolon]) ++ rest)).length ≤ rounds := by
    simp only [List.cons_append, List.append_assoc, List.length_cons] at hroom ⊢
    omega
  have hroom'' : (valueTokens ++ [semicolon] ++ rest).length ≤ rounds := by
    rw [List.length_append, List.cons_append, List.length_cons] at hroom'
    omega
  refine Meets.push (Run.bind_of_ok Reader.skip_cons) ?_
  refine Meets.push (Run.bind_of_ok (Reader.expect_cons hname)) ?_
  refine Meets.push (Run.bind_of_ok (Reader.expect_cons hcolon)) ?_
  refine Meets.bind (hlevel.type htype hroom') ?_
  refine Meets.push (Run.bind_of_ok (Reader.expect_cons hequals)) ?_
  exact meets_ended hlevel hvalue hsemicolon (Run.bind_of_ok (Reader.expect_cons hsemicolon)) hroom''

theorem meets_assignment {name equals semicolon : Token} {value : Tree}
    {valueTokens rest : List Token} (hname : name.kind = .identifier)
    (hequals : equals.kind = .assignment) (hvalue : IsExpression value valueTokens)
    (hsemicolon : semicolon.kind = .semicolon)
    (hroom : (name :: equals :: (valueTokens ++ [semicolon]) ++ rest).length ≤ rounds) :
    Meets levels (value.nesting + 1) (name :: equals :: (valueTokens ++ [semicolon])) rest
      (Reader.assignment level) (.ok (.assignment name.lexeme value) rest) := by
  have hroom' : (valueTokens ++ [semicolon] ++ rest).length ≤ rounds := by
    simp only [List.cons_append, List.length_cons] at hroom
    omega
  refine Meets.push (Run.bind_of_ok (Reader.expect_cons hname)) ?_
  refine Meets.push (Run.bind_of_ok (Reader.expect_cons hequals)) ?_
  exact meets_ended hlevel hvalue hsemicolon (Run.bind_of_ok (Reader.expect_cons hsemicolon)) hroom'

theorem meets_statement {tree : Tree} {tokens rest : List Token} (h : IsStatement tree tokens)
    (hready : Ready rest) (hroom : (tokens ++ rest).length ≤ rounds) :
    Meets levels tree.nesting tokens rest (Reader.statement level) (.ok tree rest) := by
  cases h with
  | ended hended =>
    cases hended with
    | declaration hword hname hcolon htype hequals hvalue hsemicolon =>
      refine Meets.congr ?_ (statement_declaration (declKeyword?_of_isKeyword hword _))
      exact meets_declaration hlevel hname hcolon htype hequals hvalue hsemicolon hroom
    | assignment hname hequals hvalue hsemicolon =>
      refine Meets.congr ?_ (statement_assignment (declKeyword?_of_identifier hname _)
        (startsAssignment_cons hname hequals _))
      exact meets_assignment hlevel hname hequals hvalue hsemicolon hroom
    | @expression tree tokens semicolon hexpression hsemicolon =>
      have hopens : Opens (tokens ++ [semicolon] ++ rest) := by
        rw [List.append_assoc]
        exact hexpression.opens (ends_semicolon tree rest hsemicolon)
      refine Meets.congr ?_ (statement_expression hopens)
      refine meets_ended hlevel hexpression hsemicolon ?_ hroom
      split
      · exact Run.bind_of_ok (Reader.accept_cons hsemicolon)
      · exact Run.bind_of_ok (Reader.expect_cons hsemicolon)
  | braced hbraced hexpression =>
    have hends := hready.ends hbraced
    refine Meets.congr ?_ (statement_expression (hexpression.opens hends))
    refine (hlevel.expression hexpression hends hroom).bindOk.finish ?_
    rw [if_pos hbraced]
    exact Run.bind_of_ok (Reader.accept_of_not hready.noSemicolon)

end

/-! ### Blocks -/

theorem IsExpression.isPresent {tree : Tree} {tokens : List Token} (h : IsExpression tree tokens) :
    tree.isPresent = true := by
  cases h with
  | block hblock => cases hblock <;> rfl
  | conditional hconditional => cases hconditional; rfl
  | additive hadditive =>
    have hkind := hadditive.tiered.1
    cases tree <;> simp_all [Tree.isPresent, Tree.isAdditive, Tree.isTerm, Tree.isFactor]
  | comparison => rfl

/-- Before a semicolon, an expression in a block is a statement. -/
theorem afterExpression_semicolon {expression : Tree} {more : Reader (List Tree × Tree)}
    {semicolon : Token} {rest : List Token} (hsemicolon : semicolon.kind = .semicolon) :
    Reader.afterExpression expression more (semicolon :: rest) =
      Reader.prepend (.statement expression) more rest := by
  rw [Reader.afterExpression_of_not (by simp [hsemicolon])]
  split
  · exact Run.bind_of_ok (Reader.accept_cons hsemicolon)
  · exact Run.bind_of_ok (Reader.expect_cons hsemicolon)

/-- Before another element, so is a braced expression. -/
theorem afterExpression_braced {expression : Tree} {more : Reader (List Tree × Tree)}
    {rest : List Token} (hbraced : expression.isBraced = true) (hrest : Starts rest) :
    Reader.afterExpression expression more rest =
      Reader.prepend (.statement expression) more rest := by
  rw [Reader.afterExpression_of_not hrest.notCurly, if_pos hbraced]
  exact Run.bind_of_ok (Reader.accept_of_not hrest.notSemicolon)

theorem elements_rightCurly {level : ReaderLevel} {right : Token} {rest : List Token}
    (hright : right.kind = .rightCurly) (fuel : Nat) :
    Reader.elements level fuel (right :: rest) = .ok ([], .absent) rest := by
  cases fuel with
  | zero => exact Run.bind_of_ok (Reader.expect_cons hright)
  | succ fuel =>
    rw [Reader.elements, Run.get_bind, Run.get_bind, if_pos (by simp [hright])]
    exact Run.bind_of_ok (Reader.expect_cons hright)

section

variable {rounds levels : Nat} {level : ReaderLevel} (hlevel : CompleteLevel rounds level levels)
  {fuel more : Nat} {first result : Tree} {statements : List Tree}
  {tokens others rest : List Token}

include hlevel

/-- A statement that ends with a semicolon, before the elements that follow it. -/
theorem meets_elements_ended (hfirst : IsEnded first tokens)
    (hmore : Meets levels more others rest (Reader.elements level fuel) (.ok (statements, result) rest))
    (hroom : (tokens ++ (others ++ rest)).length ≤ rounds) :
    Meets levels (max first.nesting more) (tokens ++ others) rest (Reader.elements level (fuel + 1))
      (.ok (first :: statements, result) rest) := by
  have hstarts := hfirst.starts (others ++ rest)
  rw [← List.append_assoc] at hstarts
  have hprepend : ∀ first, Meets levels more others rest
      (Reader.prepend first (Reader.elements level fuel)) (.ok (first :: statements, result) rest) :=
    fun first ↦ hmore.bindOk
  cases hfirst with
  | declaration hword hname hcolon htype hequals hvalue hsemicolon =>
    refine Meets.congr ?_ (elements_declaration hstarts (declKeyword?_of_isKeyword hword _))
    exact Meets.bind (meets_declaration hlevel hname hcolon htype hequals hvalue hsemicolon hroom)
      (hprepend _)
  | assignment hname hequals hvalue hsemicolon =>
    refine Meets.congr ?_ (elements_assignment hstarts (declKeyword?_of_identifier hname _)
      (startsAssignment_cons hname hequals _))
    exact Meets.bind (meets_assignment hlevel hname hequals hvalue hsemicolon hroom) (hprepend _)
  | @expression tree tokens semicolon hexpression hsemicolon =>
    have hends := ends_semicolon tree (others ++ rest) hsemicolon
    rw [List.append_assoc] at hroom
    have hopens : Opens (tokens ++ [semicolon] ++ others ++ rest) := by
      simpa using hexpression.opens hends
    refine Meets.congr ?_ (elements_expression hopens)
    have hlast : Meets levels more ([semicolon] ++ others) rest
        (Reader.afterExpression tree (Reader.elements level fuel))
        (.ok (.statement tree :: statements, result) rest) :=
      Meets.push (afterExpression_semicolon hsemicolon) (hprepend _)
    rw [List.append_assoc]
    exact Meets.bind (hlevel.expression hexpression hends hroom) hlast

/-- A statement before elements that do not start with the closing brace. -/
theorem meets_elements_cons (hfirst : IsStatement first tokens) (hrest : Starts (others ++ rest))
    (hmore : Meets levels more others rest (Reader.elements level fuel) (.ok (statements, result) rest))
    (hroom : (tokens ++ (others ++ rest)).length ≤ rounds) :
    Meets levels (max first.nesting more) (tokens ++ others) rest (Reader.elements level (fuel + 1))
      (.ok (first :: statements, result) rest) := by
  cases hfirst with
  | ended hended => exact meets_elements_ended hlevel hended hmore hroom
  | @braced expression _ hbraced hexpression =>
    have hends := hrest.ready.ends hbraced
    have hopens : Opens (tokens ++ others ++ rest) := by
      rw [List.append_assoc]
      exact hexpression.opens hends
    have hlast : Meets levels more others rest
        (Reader.afterExpression expression (Reader.elements level fuel))
        (.ok (.statement expression :: statements, result) rest) :=
      Meets.congr hmore.bindOk (afterExpression_braced hbraced hrest)
    refine Meets.congr ?_ (elements_expression hopens)
    exact Meets.bind (hlevel.expression hexpression hends hroom) hlast

theorem meets_elements_statements {trees : List Tree} {tokens : List Token} {fuel : Nat}
    (h : AreStatements trees tokens) (hrest : Starts (others ++ rest))
    (hmore : ∀ {fuel : Nat}, others.length ≤ fuel →
      Meets levels more others rest (Reader.elements level fuel) (.ok (statements, result) rest))
    (hfuel : (tokens ++ others).length ≤ fuel) (hroom : (tokens ++ (others ++ rest)).length ≤ rounds) :
    Meets levels (max (Tree.nestings trees) more) (tokens ++ others) rest (Reader.elements level fuel)
      (.ok (trees ++ statements, result) rest) := by
  induction h using AreStatements.induct generalizing fuel with
  | nil => exact (hmore hfuel).cast rfl (Nat.zero_max more).symm
  | @cons first trees tokens restTokens hfirst htrees ih =>
    rw [List.append_assoc] at hfuel hroom
    have hpositive := List.length_pos_iff.mpr hfirst.ne_nil
    rw [List.length_append] at hfuel
    obtain ⟨fuel, rfl⟩ : ∃ less, fuel = less + 1 := ⟨fuel - 1, by omega⟩
    have hroom' : (restTokens ++ (others ++ rest)).length ≤ rounds := by
      rw [List.length_append] at hroom
      omega
    have hfuel' : (restTokens ++ others).length ≤ fuel := by omega
    have hlast := ih hfuel' hroom'
    have hstarts : Starts (restTokens ++ others ++ rest) := by
      rw [List.append_assoc]
      exact htrees.starts hrest
    refine (meets_elements_cons hlevel hfirst hstarts hlast ?_).cast ?_ ?_
    · rwa [List.append_assoc]
    · rw [List.append_assoc]
    · rw [Tree.nestings, Nat.max_assoc]

/-- A block of statements and whatever ends it. -/
theorem meets_block_statements {left : Token} {trees : List Tree} (hleft : left.kind = .leftCurly)
    (h : AreStatements trees tokens) (hrest : Starts (others ++ rest))
    (hmore : ∀ {fuel : Nat}, others.length ≤ fuel →
      Meets levels more others rest (Reader.elements level fuel) (.ok (statements, result) rest))
    (hroom : (left :: (tokens ++ others) ++ rest).length ≤ rounds) :
    Meets levels (max (Tree.nestings trees) more) (left :: (tokens ++ others)) rest
      (Reader.block rounds level) (.ok (.block (trees ++ statements) result) rest) := by
  rw [List.cons_append, List.append_assoc, List.length_cons] at hroom
  have hfuel : (tokens ++ others).length ≤ rounds := by
    rw [← List.append_assoc, List.length_append] at hroom
    omega
  refine Meets.push (Run.bind_of_ok (Reader.expect_cons hleft)) ?_
  exact (meets_elements_statements hlevel h hrest hmore hfuel (Nat.le_of_succ_le hroom)).bindOk

/-- The last statement of a block without a result. -/
theorem meets_elements_last {right : Token} (hfirst : IsEnded first tokens)
    (hright : right.kind = .rightCurly) (hfuel : (tokens ++ [right]).length ≤ fuel)
    (hroom : (tokens ++ [right] ++ rest).length ≤ rounds) :
    Meets levels first.nesting (tokens ++ [right]) rest (Reader.elements level fuel)
      (.ok ([first], .absent) rest) := by
  rw [List.length_append, List.length_singleton] at hfuel
  obtain ⟨fuel, rfl⟩ : ∃ less, fuel = less + 1 := ⟨fuel - 1, by omega⟩
  have hclose : Meets levels 0 [right] rest (Reader.elements level fuel) (.ok ([], .absent) rest) :=
    Meets.of_eq (elements_rightCurly hright fuel)
  rw [List.append_assoc] at hroom
  exact (meets_elements_ended hlevel hfirst hclose hroom).cast rfl (Nat.max_zero _)

/-- The result of a block. -/
theorem meets_elements_result {right : Token} (hresult : IsExpression result tokens)
    (hright : right.kind = .rightCurly) (hends : Ends result (right :: rest))
    (hfuel : (tokens ++ [right]).length ≤ fuel) (hroom : (tokens ++ [right] ++ rest).length ≤ rounds) :
    Meets levels (result.nesting + 1) (tokens ++ [right]) rest (Reader.elements level fuel)
      (.ok ([], result) rest) := by
  rw [List.length_append, List.length_singleton] at hfuel
  obtain ⟨fuel, rfl⟩ : ∃ less, fuel = less + 1 := ⟨fuel - 1, by omega⟩
  rw [List.append_assoc] at hroom
  have hopens : Opens (tokens ++ [right] ++ rest) := by
    rw [List.append_assoc]
    exact hresult.opens hends
  refine Meets.congr ?_ (elements_expression hopens)
  refine Meets.bindEq (hlevel.expression hresult hends hroom) ?_
  refine (Reader.afterExpression_of_rightCurly (by simpa using hright)).trans ?_
  exact Run.bind_of_ok (Reader.expect_cons hright)

theorem meets_block {tree : Tree} (h : IsBlock tree tokens)
    (hroom : (tokens ++ rest).length ≤ rounds) :
    Meets levels tree.nesting tokens rest (Reader.block rounds level) (.ok tree rest) := by
  cases h with
  | empty hleft hright =>
    refine Meets.of_eq ((Run.bind_of_ok (Reader.expect_cons hleft)).trans ?_)
    exact Run.bind_of_ok (elements_rightCurly hright rounds)
  | @ended left right statements last tokens lastTokens hleft hstatements hlast hright =>
    have hstarts : Starts (lastTokens ++ [right] ++ rest) := by
      rw [List.append_assoc]
      exact hlast.starts _
    have hroom' : (lastTokens ++ [right] ++ rest).length ≤ rounds := by
      simp only [List.cons_append, List.append_assoc, List.length_cons, List.length_append]
        at hroom ⊢
      omega
    refine (meets_block_statements hlevel hleft hstatements hstarts
      (fun hfuel ↦ meets_elements_last hlevel hlast hright hfuel hroom') hroom).cast rfl ?_
    simp [Tree.nesting, Tree.nestings_append, Tree.nestings, Tree.isPresent]
  | @result left right statements result tokens resultTokens hleft hstatements hresult hright =>
    have hends : Ends result (right :: rest) :=
      ends_cons result rest (by rw [hright]; rfl) (by simp [hright])
    have hstarts : Starts (resultTokens ++ [right] ++ rest) := by
      rw [List.append_assoc]
      exact (hresult.opens hends).starts
    have hroom' : (resultTokens ++ [right] ++ rest).length ≤ rounds := by
      simp only [List.cons_append, List.append_assoc, List.length_cons, List.length_append]
        at hroom ⊢
      omega
    have hmeets := meets_block_statements hlevel hleft hstatements hstarts
      (fun hfuel ↦ meets_elements_result hlevel hresult hright hends hfuel hroom') hroom
    rw [List.append_nil] at hmeets
    refine hmeets.cast rfl ?_
    rw [Tree.nesting, if_pos hresult.isPresent]

end

/-! ### Conditionals -/

/-- Every expression ends before a block. -/
theorem IsBlock.ends {body : Tree} {tokens : List Token} (h : IsBlock body tokens) (tree : Tree)
    (rest : List Token) : Ends tree (tokens ++ rest) := by
  obtain ⟨left, others, rfl, hleft⟩ := h.head
  exact ends_cons tree (others ++ rest) (by rw [hleft]; rfl) (by simp [hleft])

section

variable {rounds levels : Nat} {level : ReaderLevel} {rest : List Token}

theorem elseBranches_of_not
    (hrest : (Reader.nextIsKeyword "else" rest && Reader.secondIsKeyword "if" rest) = false)
    (fuel : Nat) : Reader.elseBranches rounds level fuel rest = .ok [] rest := by
  cases fuel with
  | zero => rfl
  | succ fuel =>
    rw [Reader.elseBranches, Run.get_bind, Run.get_bind, if_neg (by simp [hrest])]
    rfl

theorem elseBranches_branch {elseWord ifWord : Token} (helse : elseWord.isKeyword "else" = true)
    (hif : ifWord.isKeyword "if" = true) (fuel : Nat) :
    Reader.elseBranches rounds level (fuel + 1) (elseWord :: ifWord :: rest) = (do
      Reader.skip
      let condition ← level.expression
      let body ← Reader.block rounds level
      let branches ← Reader.elseBranches rounds level fuel
      return Tree.branch condition body :: branches) (ifWord :: rest) := by
  have hwords : (Reader.nextIsKeyword "else" (elseWord :: ifWord :: rest) &&
      Reader.secondIsKeyword "if" (elseWord :: ifWord :: rest)) = true := by
    simpa [Reader.secondIsKeyword] using ⟨helse, hif⟩
  rw [Reader.elseBranches, Run.get_bind, Run.get_bind, if_pos hwords]
  exact Run.bind_of_ok Reader.skip_cons

theorem expressionWith_of_opensTerm {token : Token} (htoken : token.kind.opensTerm = true) :
    Reader.expressionWith rounds level (token :: rest) =
      Reader.comparison rounds level (token :: rest) := by
  have hcurly : Reader.nextIs .leftCurly (token :: rest) = false := by
    cases hkind : token.kind <;> simp_all [TokenKind.opensTerm]
  have hif : Reader.nextIsKeyword "if" (token :: rest) = false := by
    cases hkind : token.kind <;> simp_all [TokenKind.opensTerm, Token.isKeyword]
  rw [Reader.expressionWith, Run.get_bind, if_neg (by simp [hcurly]), Run.get_bind,
    if_neg (by simp [hif])]

variable (hlevel : CompleteLevel rounds level levels)

include hlevel

theorem meets_elseBranches {trees : List Tree} {tokens : List Token} {fuel : Nat}
    (h : AreBranches trees tokens)
    (hrest : (Reader.nextIsKeyword "else" rest && Reader.secondIsKeyword "if" rest) = false)
    (hfuel : tokens.length ≤ fuel) (hroom : (tokens ++ rest).length ≤ rounds) :
    Meets levels (Tree.nestings trees) tokens rest (Reader.elseBranches rounds level fuel)
      (.ok trees rest) := by
  induction h using AreBranches.induct generalizing fuel with
  | nil => exact Meets.of_eq (elseBranches_of_not hrest fuel)
  | @cons _ _ condition body branches conditionTokens bodyTokens restTokens
      helse hif hcondition hbody hbranches ih =>
    simp only [List.length_cons, List.length_append, List.cons_append, List.append_assoc] at hfuel hroom
    obtain ⟨fuel, rfl⟩ : ∃ less, fuel = less + 1 := ⟨fuel - 1, by omega⟩
    have hends : Ends condition (bodyTokens ++ restTokens ++ rest) := by
      rw [List.append_assoc]
      exact hbody.ends condition _
    have hfuel' : restTokens.length ≤ fuel := by omega
    have hlast := ih hfuel' (by rw [List.length_append]; omega)
    refine Meets.push (elseBranches_branch helse hif fuel) ?_
    refine Meets.push (Run.bind_of_ok Reader.skip_cons) ?_
    refine Meets.cast (Meets.bind (hlevel.expression hcondition hends ?_)
      (Meets.bind (meets_block hlevel hbody ?_) hlast.bindOk)) rfl ?_
    · simp only [List.length_append]
      omega
    · simp only [List.length_append]
      omega
    · rw [Tree.nestings, Tree.nesting, Nat.max_assoc]

theorem meets_elseBlock {tree : Tree} {tokens : List Token} (h : IsOtherwise tree tokens)
    (hrest : Reader.nextIsKeyword "else" rest = false) (hroom : (tokens ++ rest).length ≤ rounds) :
    Meets levels tree.nesting tokens rest (Reader.elseBlock rounds level) (.ok tree rest) := by
  cases h with
  | absent =>
    refine Meets.of_eq ?_
    rw [Reader.elseBlock, List.nil_append, Run.get_bind, if_neg (by simp [hrest])]
    rfl
  | block hword hbody =>
    rw [List.cons_append, List.length_cons] at hroom
    refine Meets.push ?_ (meets_block hlevel hbody (Nat.le_of_succ_le hroom))
    rw [Reader.elseBlock, Run.get_bind, if_pos (by simpa using hword)]
    exact Run.bind_of_ok Reader.skip_cons

omit hlevel in
/-- The last block of a conditional is no further branch of it. -/
theorem IsOtherwise.no_branch {tree : Tree} {tokens : List Token} (h : IsOtherwise tree tokens)
    (hrest : Reader.nextIsKeyword "else" rest = false) :
    (Reader.nextIsKeyword "else" (tokens ++ rest) &&
      Reader.secondIsKeyword "if" (tokens ++ rest)) = false := by
  cases h with
  | absent => simp [hrest]
  | block hword hbody =>
    obtain ⟨left, others, rfl, hleft⟩ := hbody.head
    simp [Reader.secondIsKeyword, Token.isKeyword, hleft]

theorem meets_conditional {tree : Tree} {tokens : List Token} (h : IsConditional tree tokens)
    (hrest : Reader.nextIsKeyword "else" rest = false) (hroom : (tokens ++ rest).length ≤ rounds) :
    Meets levels tree.nesting tokens rest (Reader.conditional rounds level) (.ok tree rest) := by
  cases h with
  | @branching word condition body otherwise branches conditionTokens bodyTokens branchTokens
      otherwiseTokens hword hcondition hbody hbranches hotherwise =>
    simp only [List.length_cons, List.length_append, List.cons_append, List.append_assoc] at hroom
    have hends : Ends condition (bodyTokens ++ (branchTokens ++ otherwiseTokens) ++ rest) := by
      rw [List.append_assoc]
      exact hbody.ends condition _
    refine Meets.push (Run.bind_of_ok (Reader.expectKeyword_cons hword)) ?_
    refine Meets.bind (hlevel.expression hcondition hends ?_) ?_
    · simp only [List.length_append]
      omega
    refine Meets.bind (meets_block hlevel hbody ?_) ?_
    · simp only [List.length_append]
      omega
    refine Meets.bind (meets_elseBranches hlevel hbranches (hotherwise.no_branch hrest) ?_ ?_) ?_
    · omega
    · simp only [List.length_append]
      omega
    refine (meets_elseBlock hlevel hotherwise hrest ?_).bindOk
    rw [List.length_append]
    omega

/-! ### The knot -/

theorem meets_expressionWith {tree : Tree} {tokens : List Token} (h : IsExpression tree tokens)
    (hends : Ends tree rest) (hroom : (tokens ++ rest).length ≤ rounds) :
    Meets levels tree.nesting tokens rest (Reader.expressionWith rounds level) (.ok tree rest) := by
  cases h with
  | block hblock =>
    refine Meets.congr (meets_block hlevel hblock hroom) ?_
    obtain ⟨left, others, rfl, hleft⟩ := hblock.head
    rw [Reader.expressionWith, Run.get_bind, if_pos (by simpa using hleft)]
  | conditional hconditional =>
    refine Meets.congr (meets_conditional hlevel hconditional hends.noElse hroom) ?_
    cases hconditional with
    | branching hword =>
      have hkind := Token.kind_of_isKeyword hword
      rw [Reader.expressionWith, Run.get_bind, if_neg (by simp [hkind]), Run.get_bind,
        if_pos (by simpa using hword)]
  | additive hadditive =>
    have hloose := hends.loose (Tree.isBraced_of_isAdditive hadditive.tiered.1)
    refine Meets.congr (meets_sum hlevel hadditive hloose hroom) ?_
    obtain ⟨token, others, rfl, hopens, -⟩ := hadditive.head
    exact expressionWith_of_opensTerm hopens
  | comparison hleft hoperator hright =>
    refine Meets.congr (meets_comparison hlevel hleft hoperator hright (hends.loose rfl) hroom) ?_
    obtain ⟨token, others, rfl, hopens, -⟩ := hleft.head
    exact expressionWith_of_opensTerm hopens

end

/-- Reading is complete at every number of levels. -/
theorem complete_level (rounds levels : Nat) :
    CompleteLevel rounds (Reader.level rounds levels) levels := by
  induction levels with
  | zero =>
    refine ⟨meets_type rounds 0, fun htree _ _ ↦ ?_⟩
    exact Meets.tooDeep htree.ne_nil
  | succ levels ih =>
    refine ⟨meets_type rounds (levels + 1), fun htree hends hroom ↦ ?_⟩
    exact (meets_expressionWith ih htree hends hroom).succ

/-! ### Programs -/

theorem ready_of_atEnd {rest : List Token} (hrest : Reader.atEnd rest = true) : Ready rest := by
  cases rest with
  | nil => exact ⟨rfl, rfl⟩
  | cons token others =>
    have htoken : token.kind = .endOfStream := by simpa [Reader.atEnd] using hrest
    exact ⟨by simp [Token.isKeyword, htoken], by simp [htoken]⟩

theorem AreStatements.ready {trees : List Tree} {tokens rest : List Token}
    (h : AreStatements trees tokens) (hrest : Ready rest) : Ready (tokens ++ rest) := by
  induction h using AreStatements.induct with
  | nil => exact hrest
  | cons hstatement hstatements ih =>
    rw [List.append_assoc]
    exact (hstatement.starts ih).ready

theorem statements_of_atEnd {level : ReaderLevel} {rest : List Token}
    (hrest : Reader.atEnd rest = true) (fuel : Nat) :
    Reader.statements level fuel rest = .ok [] rest := by
  cases fuel with
  | zero => rfl
  | succ fuel =>
    rw [Reader.statements, Run.get_bind, if_pos hrest]
    rfl

theorem meets_statements {rounds levels : Nat} {level : ReaderLevel}
    (hlevel : CompleteLevel rounds level levels) {trees : List Tree} {tokens rest : List Token}
    {fuel : Nat} (h : AreStatements trees tokens) (hrest : Reader.atEnd rest = true)
    (hfuel : tokens.length ≤ fuel) (hroom : (tokens ++ rest).length ≤ rounds) :
    Meets levels (Tree.nestings trees) tokens rest (Reader.statements level fuel) (.ok trees rest) := by
  induction h using AreStatements.induct generalizing fuel with
  | nil => exact Meets.of_eq (statements_of_atEnd hrest fuel)
  | @cons first trees tokens others hfirst htrees ih =>
    have hpositive := List.length_pos_iff.mpr hfirst.ne_nil
    rw [List.length_append] at hfuel
    rw [List.append_assoc] at hroom
    obtain ⟨fuel, rfl⟩ : ∃ less, fuel = less + 1 := ⟨fuel - 1, by omega⟩
    have hready := htrees.ready (ready_of_atEnd hrest)
    have hroom' : (others ++ rest).length ≤ rounds := by
      rw [List.length_append] at hroom
      omega
    have hfuel' : others.length ≤ fuel := by omega
    have hlast := ih hfuel' hroom'
    have hgo := (hfirst.starts hready).notEnd
    rw [← List.append_assoc] at hgo
    have hopen : Reader.statements level (fuel + 1) (tokens ++ others ++ rest) = (do
        let first ← Reader.statement level
        let more ← Reader.statements level fuel
        return first :: more) (tokens ++ others ++ rest) := by
      rw [Reader.statements, Run.get_bind, if_neg (by rw [hgo]; decide)]
    refine Meets.congr ?_ hopen
    exact Meets.bind (meets_statement hlevel hfirst hready hroom) hlast.bindOk

/-- The tokens of a program, up to the end of the input, are read as that program, or they nest too
deep and reading stops before one of them. -/
theorem predict_complete {tree : Tree} {tokens : List Token} (h : IsProgram tree tokens)
    (rest : List Token) (hrest : Reader.atEnd rest = true) :
    (tree.nesting ≤ nestingLimit → predict (tokens ++ rest) = .ok tree) ∧
    (nestingLimit < tree.nesting → ∃ front back, tokens = front ++ back ∧ back ≠ [] ∧
      predict (tokens ++ rest) =
        .error (.syntaxError ⟨.nesting nestingLimit, (front.length : Nat), back.head?⟩)) := by
  cases h with
  | @program trees _ hstatements =>
    have hfuel : tokens.length ≤ (tokens ++ rest).length := by simp
    have hmeets := meets_statements (complete_level (tokens ++ rest).length nestingLimit) hstatements
      hrest hfuel (Nat.le_refl _)
    constructor
    · intro hle
      unfold predict Reader.program
      rw [Run.bind_of_ok (hmeets.within hle)]
      rfl
    · intro hlt
      obtain ⟨front, back, rfl, hback, hstop⟩ := hmeets.beyond hlt
      refine ⟨front, back, rfl, hback, ?_⟩
      have hposition : (front ++ back ++ rest).length - (back ++ rest).length = front.length := by
        simp only [List.length_append]
        omega
      have hhead : (back ++ rest).head? = back.head? := by
        cases back with
        | nil => exact absurd rfl hback
        | cons token others => rfl
      have hfailure : (Obstacle.misfit (.nesting nestingLimit)).failure (front ++ back ++ rest).length
          (back ++ rest) =
            .syntaxError ⟨.nesting nestingLimit, (front.length : Nat), back.head?⟩ := by
        rw [Obstacle.failure, hposition, hhead]
      unfold predict Reader.program
      rw [Run.bind_of_error hstop, ← hfailure]

/-! ### Parsing -/

/-- Parsing is complete, with an exact limit: the tokens of a program are parsed as that program if it
keeps to the limit of nesting, and are refused at one of them as nested too deep if it does not. -/
theorem parse_complete {program : Tree} {tokens : List Token} (h : IsProgram program tokens) :
    (program.nesting ≤ nestingLimit → parse tokens = .ok program) ∧
    (nestingLimit < program.nesting → ∃ error : SyntaxError,
      parse tokens = .error (.syntaxError error) ∧ error.cause = .nesting nestingLimit ∧
        error.diagnostic.code? = some "P006" ∧
        ∃ index, index < tokens.length ∧ error.position = index ∧ error.token? = tokens[index]?) := by
  obtain ⟨hwithin, hbeyond⟩ := predict_complete h [] rfl
  rw [List.append_nil] at hwithin hbeyond
  rw [parse_eq_predict]
  refine ⟨hwithin, fun hlt ↦ ?_⟩
  obtain ⟨front, back, rfl, hback, hstop⟩ := hbeyond hlt
  have hpositive := List.length_pos_iff.mpr hback
  refine ⟨_, hstop, rfl, rfl, front.length, ?_, rfl, ?_⟩
  · rw [List.length_append]
    omega
  · rw [List.getElem?_append_right (Nat.le_refl _), Nat.sub_self, List.head?_eq_getElem?]

/-- A block in a block, directly before its closing brace, is the result of that block. -/
theorem parse_complete_nested_block :
    IsProgram (.program [.statement (.block [] (.block [] .absent))])
      [⟨.leftCurly, some "\x7b"⟩, ⟨.leftCurly, some "\x7b"⟩, ⟨.rightCurly, some "\x7d"⟩,
        ⟨.rightCurly, some "\x7d"⟩] ∧
    parse [⟨.leftCurly, some "\x7b"⟩, ⟨.leftCurly, some "\x7b"⟩, ⟨.rightCurly, some "\x7d"⟩,
      ⟨.rightCurly, some "\x7d"⟩] = .ok (.program [.statement (.block [] (.block [] .absent))]) := by
  have hinner : IsBlock (.block [] .absent) [⟨.leftCurly, some "\x7b"⟩, ⟨.rightCurly, some "\x7d"⟩] :=
    .empty rfl rfl
  have houter : IsBlock (.block [] (.block [] .absent)) [⟨.leftCurly, some "\x7b"⟩,
      ⟨.leftCurly, some "\x7b"⟩, ⟨.rightCurly, some "\x7d"⟩, ⟨.rightCurly, some "\x7d"⟩] :=
    .result rfl .nil (.block hinner) rfl
  have hprogram := IsProgram.program (.cons (.braced rfl (.block houter)) .nil)
  exact ⟨hprogram, (parse_complete hprogram).1 (by decide)⟩

/-- Parsing is sound: a program that was parsed is the only one that the tokens before the first end of
the stream derive; its operands keep to their tiers, and it keeps to the limit of nesting. -/
theorem parse_sound {program : Tree} {tokens : List Token} (hparse : parse tokens = .ok program) :
    IsProgram program (tokens.takeWhile (·.kind != .endOfStream)) ∧
    (∀ other, IsProgram other (tokens.takeWhile (·.kind != .endOfStream)) → other = program) ∧
    program.tiered = true ∧ program.nesting ≤ nestingLimit := by
  rw [parse_eq_predict] at hparse
  obtain ⟨hderived, hnesting⟩ := predict_sound hparse
  refine ⟨hderived, fun other hother ↦ ?_, hderived.tiered, hnesting⟩
  have hread := (predict_complete hderived [] rfl).1 hnesting
  obtain ⟨hwithin, hbeyond⟩ := predict_complete hother [] rfl
  by_cases hother : other.nesting ≤ nestingLimit
  · rw [hwithin hother] at hread
    cases hread
    rfl
  · obtain ⟨front, back, -, -, hstop⟩ := hbeyond (by omega)
    rw [hstop] at hread
    cases hread

/-- The value of `1;` and the end of the stream behind it. -/
theorem parse_sound_literal :
    parse [⟨.numberLiteral, some "1"⟩, ⟨.semicolon, some ";"⟩, Token.endOfStream] =
        .ok (.program [.statement (.literal (some "1"))]) ∧
      IsProgram (.program [.statement (.literal (some "1"))])
        [⟨.numberLiteral, some "1"⟩, ⟨.semicolon, some ";"⟩] := by
  have hparse : parse [⟨.numberLiteral, some "1"⟩, ⟨.semicolon, some ";"⟩, Token.endOfStream] =
      .ok (.program [.statement (.literal (some "1"))]) := by
    rw [parse_eq_predict]
    rfl
  exact ⟨hparse, (parse_sound hparse).1⟩

end LetLang
