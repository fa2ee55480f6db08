import LetLang.Proofs.Grammar.Completeness
import LetLang.Proofs.Source.Tokens
import LetLang.Reduction.Reduce
import Mathlib.Data.List.TakeDrop

/-!
# Why the reduction of a parsed program can fail

The reduction of a program that was parsed from a source text fails with a semantic error, or because
an integer literal has more characters than are converted to an integer. No literal that is really
too great fails in the second way: the length is checked first, but without the zeros at the front of
the literal, so it has to be one with thousands of them (`Excessive`). With 4301 zeros and nothing else
it is the integer zero that is not converted (`validate_zeros`).

Trees can be reduced that no source stands for, with places left empty or literals without a text, and
these fail in other ways. A parsed tree is filled wherever the reduction goes, and each of its
literals has the text of a token (`Tree.Spelled`).
-/

set_option autoImplicit false

namespace LetLang

/-! ### Literals with a text -/

mutual

/-- Every place of the tree to which a reduction goes holds a node, and every literal there has the
property. -/
def Tree.Spelled (property : Lexeme → Prop) : Tree → Prop
  | .absent => False
  | .program statements => Tree.AllSpelled property statements
  | .declaration _ _ _ value => Tree.Spelled property value
  | .assignment _ value => Tree.Spelled property value
  | .statement expression => Tree.Spelled property expression
  | .arith _ left right => Tree.Spelled property left ∧ Tree.Spelled property right
  | .comparison left _ right => Tree.Spelled property left ∧ Tree.Spelled property right
  | .call _ arguments => Tree.AllSpelled property arguments
  | .block statements result =>
    Tree.AllSpelled property statements ∧ (result.isPresent = true → Tree.Spelled property result)
  | .branch condition body => Tree.Spelled property condition ∧ Tree.Spelled property body
  | .conditional condition body branches otherwise =>
    Tree.Spelled property condition ∧ Tree.Spelled property body ∧
      Tree.AllSpelled property branches ∧
        (otherwise.isPresent = true → Tree.Spelled property otherwise)
  | .negation factor => Tree.Spelled property factor
  | .parenthesized expression => Tree.Spelled property expression
  | .literal lexeme => property lexeme
  | _ => True

/-- The same of several trees. -/
def Tree.AllSpelled (property : Lexeme → Prop) : List Tree → Prop
  | [] => True
  | tree :: rest => Tree.Spelled property tree ∧ Tree.AllSpelled property rest

end

/-- Every literal among the tokens has the property. -/
def Spells (property : Lexeme → Prop) (tokens : List Token) : Prop :=
  ∀ token ∈ tokens, token.kind = .numberLiteral → property token.lexeme

section

variable {property : Lexeme → Prop}

@[simp] theorem spells_cons {token : Token} {tokens : List Token} :
    Spells property (token :: tokens) ↔
      (token.kind = .numberLiteral → property token.lexeme) ∧ Spells property tokens :=
  List.forall_mem_cons

@[simp] theorem spells_append {first second : List Token} :
    Spells property (first ++ second) ↔ Spells property first ∧ Spells property second :=
  List.forall_mem_append

theorem Tree.allSpelled_append {first second : List Tree}
    (hfirst : Tree.AllSpelled property first) (hsecond : Tree.AllSpelled property second) :
    Tree.AllSpelled property (first ++ second) := by
  induction first with
  | nil => exact hsecond
  | cons tree rest ih => exact ⟨hfirst.1, ih hfirst.2⟩

theorem Tree.AllSpelled.of_mem {trees : List Tree} (htrees : Tree.AllSpelled property trees) :
    ∀ tree ∈ trees, tree.Spelled property := by
  induction trees with
  | nil => exact fun tree htree ↦ nomatch htree
  | cons first rest ih =>
    intro tree htree
    rcases List.mem_cons.mp htree with rfl | hmem
    · exact htrees.1
    · exact ih htrees.2 tree hmem

theorem Tree.spelled_of_isNumber {tree : Tree} (hnumber : tree.isNumber = true) :
    tree.Spelled property := by
  cases tree <;> simp_all [Tree.isNumber, Tree.Spelled]

/-! Derived trees are filled, and their literals are literals among the tokens. -/

mutual

theorem IsFactor.spelled {tree : Tree} {tokens : List Token} (h : IsFactor tree tokens)
    (hspells : Spells property tokens) : tree.Spelled property := by
  match h with
  | .literal hkind => exact (spells_cons.mp hspells).1 hkind
  | .number _ hnumber => exact Tree.spelled_of_isNumber (Token.isNumber_of_number? hnumber)
  | .identifier _ => exact trivial
  | .emptyCall .. => exact trivial
  | .call _ _ harguments _ =>
    simp only [spells_cons, spells_append] at hspells
    exact harguments.spelled hspells.2.2.1
  | .parenthesized _ hinner _ =>
    simp only [spells_cons, spells_append] at hspells
    exact hinner.spelled hspells.2.1

theorem AreArguments.spelled {trees : List Tree} {tokens : List Token}
    (h : AreArguments trees tokens) (hspells : Spells property tokens) :
    Tree.AllSpelled property trees := by
  match h with
  | .one hargument => exact ⟨hargument.spelled hspells, trivial⟩
  | .more hargument _ hrest =>
    simp only [spells_cons, spells_append] at hspells
    exact ⟨hargument.spelled hspells.1, hrest.spelled hspells.2.2⟩

theorem IsTerm.spelled {tree : Tree} {tokens : List Token} (h : IsTerm tree tokens)
    (hspells : Spells property tokens) : tree.Spelled property := by
  match h with
  | .factor hfactor => exact hfactor.spelled hspells
  | .negation _ hfactor => exact hfactor.spelled (spells_cons.mp hspells).2
  | .step hleft _ hright =>
    simp only [spells_cons, spells_append] at hspells
    exact ⟨hleft.spelled hspells.1, hright.spelled hspells.2.2⟩

theorem IsAdditive.spelled {tree : Tree} {tokens : List Token} (h : IsAdditive tree tokens)
    (hspells : Spells property tokens) : tree.Spelled property := by
  match h with
  | .term hterm => exact hterm.spelled hspells
  | .step hleft _ hright =>
    simp only [spells_cons, spells_append] at hspells
    exact ⟨hleft.spelled hspells.1, hright.spelled hspells.2.2⟩

theorem IsExpression.spelled {tree : Tree} {tokens : List Token} (h : IsExpression tree tokens)
    (hspells : Spells property tokens) : tree.Spelled property := by
  match h with
  | .block hblock => exact hblock.spelled hspells
  | .conditional hconditional => exact hconditional.spelled hspells
  | .additive hadditive => exact hadditive.spelled hspells
  | .comparison hleft _ hright =>
    simp only [spells_cons, spells_append] at hspells
    exact ⟨hleft.spelled hspells.1, hright.spelled hspells.2.2⟩

theorem IsEnded.spelled {tree : Tree} {tokens : List Token} (h : IsEnded tree tokens)
    (hspells : Spells property tokens) : tree.Spelled property := by
  match h with
  | .declaration _ _ _ _ _ hvalue _ =>
    simp only [spells_cons, spells_append] at hspells
    exact hvalue.spelled hspells.2.2.2.2.2.1
  | .assignment _ _ hvalue _ =>
    simp only [spells_cons, spells_append] at hspells
    exact hvalue.spelled hspells.2.2.1
  | .expression hexpression _ => exact hexpression.spelled (spells_append.mp hspells).1

theorem IsStatement.spelled {tree : Tree} {tokens : List Token} (h : IsStatement tree tokens)
    (hspells : Spells property tokens) : tree.Spelled property := by
  match h with
  | .ended hended => exact hended.spelled hspells
  | .braced _ hexpression => exact hexpression.spelled hspells

theorem AreStatements.spelled {trees : List Tree} {tokens : List Token}
    (h : AreStatements trees tokens) (hspells : Spells property tokens) :
    Tree.AllSpelled property trees := by
  match h with
  | .nil => exact trivial
  | .cons hstatement hrest =>
    rw [spells_append] at hspells
    exact ⟨hstatement.spelled hspells.1, hrest.spelled hspells.2⟩

theorem IsBlock.spelled {tree : Tree} {tokens : List Token} (h : IsBlock tree tokens)
    (hspells : Spells property tokens) : tree.Spelled property := by
  match h with
  | .empty .. => exact ⟨trivial, fun hpresent ↦ nomatch hpresent⟩
  | .ended _ hstatements hlast _ =>
    simp only [spells_cons, spells_append] at hspells
    refine ⟨Tree.allSpelled_append (hstatements.spelled hspells.2.1) ?_, fun h ↦ nomatch h⟩
    exact ⟨hlast.spelled hspells.2.2.1, trivial⟩
  | .result _ hstatements hresult _ =>
    simp only [spells_cons, spells_append] at hspells
    exact ⟨hstatements.spelled hspells.2.1, fun _ ↦ hresult.spelled hspells.2.2.1⟩

theorem IsConditional.spelled {tree : Tree} {tokens : List Token} (h : IsConditional tree tokens)
    (hspells : Spells property tokens) : tree.Spelled property := by
  match h with
  | .branching _ hcondition hbody hbranches hotherwise =>
    simp only [spells_cons, spells_append] at hspells
    obtain ⟨-, hconditionSpells, hbodySpells, hbranchesSpells, hotherwiseSpells⟩ := hspells
    exact ⟨hcondition.spelled hconditionSpells, hbody.spelled hbodySpells,
      hbranches.spelled hbranchesSpells, hotherwise.spelled hotherwiseSpells⟩

theorem AreBranches.spelled {trees : List Tree} {tokens : List Token} (h : AreBranches trees tokens)
    (hspells : Spells property tokens) : Tree.AllSpelled property trees := by
  match h with
  | .nil => exact trivial
  | .cons _ _ hcondition hbody hrest =>
    simp only [spells_cons, spells_append] at hspells
    obtain ⟨-, -, hconditionSpells, hbodySpells, hrestSpells⟩ := hspells
    exact ⟨⟨hcondition.spelled hconditionSpells, hbody.spelled hbodySpells⟩,
      hrest.spelled hrestSpells⟩

theorem IsOtherwise.spelled {tree : Tree} {tokens : List Token} (h : IsOtherwise tree tokens)
    (hspells : Spells property tokens) : tree.isPresent = true → tree.Spelled property := by
  match h with
  | .absent => exact fun hpresent ↦ nomatch hpresent
  | .block _ hbody => exact fun _ ↦ hbody.spelled (spells_cons.mp hspells).2

end

theorem IsProgram.spelled {tree : Tree} {tokens : List Token} (h : IsProgram tree tokens)
    (hspells : Spells property tokens) : tree.Spelled property := by
  cases h with
  | program hstatements => exact hstatements.spelled hspells

end

/-! ### Reductions that fail -/

/-- The reduction fails, whatever the state, only for reasons that are allowed. -/
def FailsOnly {α : Type} (allowed : ReductionFailure → Prop) (reduction : Reduction α) : Prop :=
  ∀ before failure after, reduction before = .error failure after → allowed failure

namespace FailsOnly

variable {α β : Type} {allowed : ReductionFailure → Prop}

theorem pure (value : α) : FailsOnly allowed (Pure.pure value) := by
  intro before failure after hrun
  cases hrun

theorem throw {failure : ReductionFailure} (hallowed : allowed failure) :
    FailsOnly allowed (throwThe ReductionFailure failure : Reduction α) := by
  intro before failure after hrun
  cases hrun
  exact hallowed

theorem get : FailsOnly allowed MonadState.get := by
  intro before failure after hrun
  cases hrun

theorem modifying (change : ReductionState → ReductionState) :
    FailsOnly allowed (modify change : Reduction Unit) := by
  intro before failure after hrun
  cases hrun

theorem bind {first : Reduction α} {next : α → Reduction β} (hfirst : FailsOnly allowed first)
    (hnext : ∀ value, FailsOnly allowed (next value)) : FailsOnly allowed (first >>= next) := by
  intro before failure after hrun
  rcases Run.of_bind_eq_error hrun with hstop | ⟨value, middle, -, hlast⟩
  · exact hfirst before failure after hstop
  · exact hnext value middle failure after hlast

theorem mapM {body : α → Reduction β} {items : List α}
    (hbody : ∀ item ∈ items, FailsOnly allowed (body item)) : FailsOnly allowed (items.mapM body) := by
  induction items with
  | nil =>
    rw [List.mapM_nil]
    exact pure []
  | cons item items ih =>
    rw [List.mapM_cons]
    refine bind (hbody item List.mem_cons_self) fun first ↦ ?_
    exact bind (ih fun other hother ↦ hbody other (List.mem_cons_of_mem item hother)) fun _ ↦ pure _

theorem inScope {body : Reduction α} (hbody : FailsOnly allowed body) :
    FailsOnly allowed (Reduction.inScope body) := by
  intro before failure after hrun
  unfold Reduction.inScope at hrun
  split at hrun
  · cases hrun
  · next hstop =>
    cases hrun
    exact hbody _ _ _ hstop

theorem ifPresent {body : Tree → Reduction Tree} {tree : Tree}
    (hbody : tree.isPresent = true → FailsOnly allowed (body tree)) :
    FailsOnly allowed (Reduction.ifPresent body tree) := by
  unfold Reduction.ifPresent
  split
  · next hpresent => exact hbody hpresent
  · exact pure _

end FailsOnly

/-- A literal with more characters than are converted to an integer, of which few enough to be checked
by value are left behind the zeros at its front. -/
def Excessive (text : String) : Prop :=
  digitLimit < text.length ∧ (text.toList.dropWhile (· == '0')).length ≤ int64Digits

/-- The failures that a program can bring about whose literals have the property. -/
inductive Accountable (property : Lexeme → Prop) : ReductionFailure → Prop
  | semantic (error : SemanticError) : Accountable property (.semantic error)
  | digits {text : String} (htext : property (some text)) (hexcessive : Excessive text) :
      Accountable property (.tooManyDigits text.length)

section

variable {property : Lexeme → Prop}

theorem failsOnly_fail {α : Type} (error : SemanticError) :
    FailsOnly (Accountable property) (Reduction.fail error : Reduction α) :=
  .throw (.semantic error)

theorem failsOnly_arith (strict : Bool) (op : ArithOp) (left right : Tree) :
    FailsOnly (Accountable property) (Reduction.arith strict op left right) := by
  unfold Reduction.arith
  split
  · next leftNumber rightNumber _ _ =>
    unfold Reduction.compute
    split
    · exact .bind (.modifying _) fun _ ↦ .pure _
    · exact failsOnly_fail _
  · split
    · exact failsOnly_fail _
    · exact .pure _
  · split
    · exact failsOnly_fail _
    · exact .pure _

theorem failsOnly_negation (strict : Bool) (factor : Tree) :
    FailsOnly (Accountable property) (Reduction.negation strict factor) := by
  unfold Reduction.negation
  split
  · exact .pure _
  · split
    · exact failsOnly_fail _
    · exact .pure _

/-! ### Literals -/

theorem length_of_digitValues? {text : List Char} {digits : List Nat}
    (hdigits : digitValues? text = some digits) : digits.length = text.length := by
  induction text generalizing digits with
  | nil =>
    cases hdigits
    rfl
  | cons c rest ih =>
    rw [digitValues?, List.mapM_cons] at hdigits
    obtain ⟨digit, -, hnext⟩ := Option.bind_eq_some_iff.mp hdigits
    obtain ⟨others, hothers, hpure⟩ := Option.bind_eq_some_iff.mp hnext
    cases hpure
    rw [List.length_cons, List.length_cons, ih hothers]

/-- A number without a fraction is read from as many characters as it has digits. -/
theorem length_whole_of_plainNumber? {text : List Char} {number : PlainNumber}
    (hnumber : plainNumber? text = some number) (hwhole : number.fraction? = none) :
    number.whole.length = text.length := by
  unfold plainNumber? at hnumber
  rw [List.span_eq_takeWhile_dropWhile] at hnumber
  obtain ⟨digits, hdigits, hrest⟩ := Option.bind_eq_some_iff.mp hnumber
  split at hrest
  · cases hrest
  split at hrest
  · next hend =>
    cases hrest
    have htext : text.takeWhile Text.isDecimalDigit = text := by
      have hparts := List.takeWhile_append_dropWhile (p := Text.isDecimalDigit) (l := text)
      rwa [hend, List.append_nil] at hparts
    rw [length_of_digitValues? hdigits, htext]
  · split at hrest
    · obtain ⟨fraction, -, hpure⟩ := Option.bind_eq_some_iff.mp hrest
      cases hpure
      cases hwhole
    · cases hrest

theorem accountable_resolveInteger {text : String} {digits : List Nat} {failure : ReductionFailure}
    (htext : property (some text)) (hdigits : digits.length = text.length)
    (hfailure : resolveInteger text digits = .error failure) : Accountable property failure := by
  unfold resolveInteger at hfailure
  split at hfailure
  · cases hfailure
    exact .semantic _
  · next hshort =>
    split at hfailure
    · next hlong =>
      cases hfailure
      rw [hdigits] at hlong ⊢
      exact .digits htext ⟨hlong, Nat.le_of_not_lt hshort⟩
    · split at hfailure
      · cases hfailure
        exact .semantic _
      · cases hfailure

theorem accountable_resolveLiteral {text : String} {expected? : Option Tree}
    {failure : ReductionFailure} (htext : property (some text))
    (hfailure : resolveLiteral text expected? = .error failure) : Accountable property failure := by
  unfold resolveLiteral at hfailure
  cases hnumber : plainNumber? text.toList with
  | none =>
    simp only [hnumber] at hfailure
    cases hfailure
    exact .semantic _
  | some number =>
    simp only [hnumber] at hfailure
    split at hfailure
    · cases hfailure
    split at hfailure
    · next hwhole =>
      have hlength := length_whole_of_plainNumber? hnumber hwhole
      exact accountable_resolveInteger htext hlength hfailure
    · split at hfailure
      · cases hfailure
        exact .semantic _
      · cases hfailure

variable (hnone : ¬ property none)

include hnone

theorem failsOnly_literal {lexeme : Lexeme} (hlexeme : property lexeme) (expected? : Option Tree) :
    FailsOnly (Accountable property) (Reduction.literal expected? lexeme) := by
  cases lexeme with
  | none => exact absurd hlexeme hnone
  | some text =>
    unfold Reduction.literal
    split
    · exact .pure _
    · next failure hfailure => exact .throw (accountable_resolveLiteral hlexeme hfailure)

/-! ### Trees -/

theorem failsOnly_reduce (strict : Bool) (levels : Nat) :
    ∀ (expected? : Option Tree) (tree : Tree), tree.Spelled property →
      FailsOnly (Accountable property) (Reduction.reduce strict levels expected? tree) := by
  induction levels with
  | zero => exact fun expected? tree _ ↦ failsOnly_fail .tooDeep
  | succ levels ih =>
    intro expected? tree hspelled
    have hall : ∀ (expected? : Option Tree) {trees : List Tree}, Tree.AllSpelled property trees →
        FailsOnly (Accountable property) (trees.mapM (Reduction.reduce strict levels expected?)) :=
      fun expected? trees htrees ↦ .mapM fun tree htree ↦ ih expected? tree (htrees.of_mem tree htree)
    cases tree with
    | absent => exact hspelled.elim
    | program statements => exact .bind (hall expected? hspelled) fun _ ↦ .pure _
    | declaration keyword name type value =>
      refine .bind (ih (some type) value hspelled) fun value ↦ ?_
      exact .bind (.modifying _) fun _ ↦ .pure _
    | assignment name value =>
      exact .bind .get fun state ↦ .bind (ih _ value hspelled) fun _ ↦ .pure _
    | statement expression => exact .bind (ih none expression hspelled) fun _ ↦ .pure _
    | arith op left right =>
      refine .bind (ih expected? left hspelled.1) fun left ↦ ?_
      exact .bind (ih expected? right hspelled.2) fun right ↦ failsOnly_arith strict op left right
    | comparison left op right =>
      refine .bind (ih none left hspelled.1) fun left ↦ ?_
      exact .bind (ih none right hspelled.2) fun _ ↦ .pure _
    | call name arguments => exact .bind (hall none hspelled) fun _ ↦ .pure _
    | block statements result =>
      refine .inScope (.bind (hall expected? hspelled.1) fun statements ↦ ?_)
      exact .bind (.ifPresent fun hpresent ↦ ih expected? result (hspelled.2 hpresent)) fun _ ↦ .pure _
    | branch condition body =>
      refine .bind (ih none condition hspelled.1) fun condition ↦ ?_
      exact .bind (ih expected? body hspelled.2) fun _ ↦ .pure _
    | conditional condition body branches otherwise =>
      obtain ⟨hcondition, hbody, hbranches, hotherwise⟩ := hspelled
      refine .bind (ih none condition hcondition) fun condition ↦ ?_
      refine .bind (ih expected? body hbody) fun body ↦ ?_
      refine .bind (hall expected? hbranches) fun branches ↦ ?_
      exact .bind (.ifPresent fun hpresent ↦ ih expected? otherwise (hotherwise hpresent)) fun _ ↦
        .pure _
    | negation factor =>
      exact .bind (ih expected? factor hspelled) fun factor ↦ failsOnly_negation strict factor
    | parenthesized expression => exact .bind (ih expected? expression hspelled) fun _ ↦ .pure _
    | literal lexeme => exact failsOnly_literal hnone hspelled expected?
    | identifier name => exact .pure _
    | integer value => exact .pure _
    | float value => exact .pure _
    | basicType name => exact .pure _
    | functionType parameters result => exact .pure _
    | parameter name type => exact .pure _

theorem accountable_validate {strict : Bool} {program : Tree} (hspelled : program.Spelled property)
    {failure : ReductionFailure} (hfailure : (validate strict program).result = .error failure) :
    Accountable property failure := by
  have hreduce := failsOnly_reduce hnone strict Reduction.depthLimit none program hspelled
  unfold validate Reducer.validate Reducer.visit at hfailure
  cases hrun : Reduction.reduce strict Reduction.depthLimit none program ⟨{}, []⟩ with
  | ok found state =>
    simp only [hrun] at hfailure
    cases hfailure
  | error found state =>
    simp only [hrun] at hfailure
    cases hfailure
    exact hreduce _ _ _ hrun

end

/-! ### Sources -/

theorem SemanticError.code_mem (error : SemanticError) :
    error.code ∈ ["S001", "S002", "S003", "S004", "S005"] := by
  cases error <;> simp [code]

/-- The text is the one of a literal of the source. -/
def LiteralOf (source file : String) (lexeme : Lexeme) : Prop :=
  ∃ token ∈ (lex source file).tokens, token.kind = .numberLiteral ∧ token.lexeme = lexeme

theorem not_literalOf_none (source file : String) : ¬ LiteralOf source file none := by
  rintro ⟨token, htoken, hkind, hlexeme⟩
  obtain ⟨front, hfront, hemitted⟩ := emitted_lex source file
  rw [hfront] at htoken
  rcases List.mem_append.mp htoken with hmem | hmem
  · obtain ⟨text, htext⟩ := (hemitted token hmem).text
    cases hlexeme.symm.trans htext
  · obtain rfl := List.mem_singleton.mp hmem
    cases hkind

/-- The literals of a parsed program are literals of its source. -/
theorem spelled_of_parseSource {source file : String} {program : Tree}
    (hparse : parseSource source file = .ok program) :
    program.Spelled (LiteralOf source file) := by
  cases htokens : tokenize source file with
  | error error =>
    rw [parseSource, htokens] at hparse
    cases hparse
  | ok tokens =>
    rw [parseSource_of_tokenize htokens, parse_eq_predict] at hparse
    cases hread : predict tokens with
    | error failure =>
      rw [hread] at hparse
      cases hparse
    | ok tree =>
      rw [hread] at hparse
      cases hparse
      refine (predict_sound hread).1.spelled fun token htoken hkind ↦ ⟨token, ?_, hkind, rfl⟩
      rw [lex_of_tokenize htokens]
      exact (List.takeWhile_prefix _).subset htoken

/-! ### Zeros -/

/-- The given number of zeros, as characters. -/
def zeros (count : Nat) : List Char := List.replicate count '0'

/-- A test that zero passes goes past all zeros. -/
theorem span_zeros {test : Char → Bool} (hzero : test '0' = true) (count : Nat) (rest : List Char) :
    (zeros count ++ rest).takeWhile test = zeros count ++ rest.takeWhile test ∧
      (zeros count ++ rest).dropWhile test = rest.dropWhile test := by
  have hall : ∀ digit ∈ zeros count, test digit = true := by
    intro digit hdigit
    rwa [List.eq_of_mem_replicate hdigit]
  exact ⟨List.takeWhile_append_of_pos hall, List.dropWhile_append_of_pos hall⟩

theorem pieces_zeros (count : Nat) :
    pieces (zeros (count + 1) ++ [';']) =
      [.number (zeros (count + 1)), .operator .semicolon [';']] := by
  have hdigit : Text.isDigit '0' = true := by decide +kernel
  have hstop : Text.isDigit ';' = false := by decide +kernel
  obtain ⟨htake, hdrop⟩ := span_zeros hdigit count [';']
  rw [List.takeWhile_cons_of_neg (by simp [hstop]), List.append_nil] at htake
  rw [List.dropWhile_cons_of_neg (by simp [hstop])] at hdrop
  have hfirst : Piece.first '0' (zeros count ++ [';']) = (.number (zeros (count + 1)), [';']) := by
    have hblank : Text.isBlank '0' = false := by decide +kernel
    have hword : Piece.startsWord '0' = false := by decide +kernel
    rw [Piece.first, hblank, hword, hdigit]
    simp only [Piece.numberFirst, htake, hdrop]
    rfl
  have hlast : Piece.first ';' [] = (.operator .semicolon [';'], []) := by decide +kernel
  rw [show zeros (count + 1) = '0' :: zeros count from rfl, List.cons_append, pieces_cons, hfirst,
    pieces_cons, hlast]
  rfl

theorem parseSource_zeros (count : Nat) (file : String) :
    parseSource (String.ofList (zeros (count + 1) ++ [';'])) file =
      .ok (.program [.statement (.literal (some (String.ofList (zeros (count + 1)))))]) := by
  have htokens : tokenize (String.ofList (zeros (count + 1) ++ [';'])) file =
      .ok [⟨.numberLiteral, some (String.ofList (zeros (count + 1)))⟩, ⟨.semicolon, some ";"⟩,
        Token.endOfStream] := by
    unfold tokenize lex
    rw [String.toList_ofList, pieces_zeros]
    rfl
  rw [parseSource_of_tokenize htokens, parse_eq_predict]
  rfl

theorem digitValues?_zeros (count : Nat) :
    digitValues? (zeros count) = some (List.replicate count 0) := by
  have hzero : Text.decimalValue? '0' = some 0 := by decide
  induction count with
  | zero => rfl
  | succ count ih =>
    rw [show zeros (count + 1) = '0' :: zeros count from rfl, digitValues?, List.mapM_cons, hzero]
    change (digitValues? (zeros count)).bind _ = _
    rw [ih]
    rfl

/-- More zeros than are converted to an integer are not converted, although they are not too long
without the zeros at the front. -/
theorem resolveLiteral_zeros {count : Nat} (hcount : digitLimit < count) :
    resolveLiteral (String.ofList (zeros count)) none = .error (.tooManyDigits count) := by
  have hpositive : count ≠ 0 := Nat.ne_of_gt (Nat.lt_of_le_of_lt (Nat.zero_le digitLimit) hcount)
  obtain ⟨htake, hdrop⟩ := span_zeros (by decide : Text.isDecimalDigit '0' = true) count []
  have hfront : (zeros count).dropWhile (· == '0') = [] := by
    rw [← List.append_nil (zeros count)]
    exact (span_zeros (by decide) count []).2
  rw [List.append_nil] at htake hdrop
  have hplain : plainNumber? (zeros count) = some ⟨List.replicate count 0, none⟩ := by
    unfold plainNumber?
    rw [List.span_eq_takeWhile_dropWhile, htake, hdrop, List.takeWhile_nil, List.append_nil]
    simp [digitValues?_zeros, hpositive]
  unfold resolveLiteral
  rw [String.toList_ofList, hplain]
  simp [expectedData?, resolveInteger, hfront, hcount]

/-- What fails in a literal that is the only statement of a program fails in the program. -/
theorem validate_literal {lexeme : Lexeme} {failure : ReductionFailure}
    (hfailure : resolveLexeme lexeme none = .error failure) (strict : Bool) :
    (validate strict (.program [.statement (.literal lexeme)])).result = .error failure := by
  have hliteral : ∀ levels state, Reduction.reduce strict (levels + 1) none (.literal lexeme) state =
      .error failure state := by
    intro levels state
    rw [Reduction.reduce, Reduction.literal, hfailure]
    rfl
  have hprogram : ∀ levels state, Reduction.reduce strict (levels + 3) none
      (.program [.statement (.literal lexeme)]) state = .error failure state := by
    intro levels state
    rw [Reduction.reduce, List.mapM_cons]
    refine Run.bind_of_error (Run.bind_of_error ?_)
    rw [Reduction.reduce]
    exact Run.bind_of_error (hliteral levels state)
  have hrun : Reduction.reduce strict Reduction.depthLimit none
      (.program [.statement (.literal lexeme)]) ⟨{}, []⟩ = .error failure ⟨{}, []⟩ :=
    hprogram (Reduction.depthLimit - 3) ⟨{}, []⟩
  unfold validate Reducer.validate Reducer.visit
  simp only [hrun]

/-- With more zeros than are converted, a program that has no other fault is not reduced: the failure
is no semantic error, although the literal stands for the integer zero. -/
theorem validate_of_zeros {count : Nat} (hcount : digitLimit < count) (file : String) : ∃ program,
    parseSource (String.ofList (zeros count ++ [';'])) file = .ok program ∧
    ∀ strict, (validate strict program).result = .error (.tooManyDigits count) := by
  have hfailure := resolveLiteral_zeros hcount
  obtain ⟨less, rfl⟩ : ∃ less, count = less + 1 := ⟨count - 1, by omega⟩
  exact ⟨_, parseSource_zeros less file, validate_literal hfailure⟩

/-! ### Parsed programs -/

/-- The reduction of a parsed program succeeds, or fails with a semantic error, or stops at a literal of
the source that has too many characters to be converted, most of them zeros at its front. -/
theorem validate_outcome {source file : String} {program : Tree}
    (hparse : parseSource source file = .ok program) (strict : Bool) :
    (∃ reduced, (validate strict program).result = .ok reduced) ∨
    (∃ error, (validate strict program).result = .error (.semantic error) ∧
      error.code ∈ ["S001", "S002", "S003", "S004", "S005"]) ∨
    ∃ text, LiteralOf source file (some text) ∧ Excessive text ∧
      (validate strict program).result = .error (.tooManyDigits text.length) := by
  cases hresult : (validate strict program).result with
  | ok reduced => exact .inl ⟨reduced, rfl⟩
  | error failure =>
    have haccountable := accountable_validate (not_literalOf_none source file)
      (spelled_of_parseSource hparse) hresult
    cases haccountable with
    | semantic error => exact .inr (.inl ⟨error, rfl, error.code_mem⟩)
    | @digits text htext hexcessive => exact .inr (.inr ⟨text, htext, hexcessive, rfl⟩)

/-- The literal of 4301 zeros is the one that is to blame. -/
theorem validate_outcome_zeros : ∃ program,
    parseSource (String.ofList (zeros 4301 ++ [';'])) "zeros.fn" = .ok program ∧
    ∃ text, LiteralOf (String.ofList (zeros 4301 ++ [';'])) "zeros.fn" (some text) ∧ Excessive text ∧
      (validate true program).result = .error (.tooManyDigits text.length) := by
  obtain ⟨program, hparse, hresult⟩ :=
    validate_of_zeros (by decide : digitLimit < 4301) "zeros.fn"
  refine ⟨program, hparse, ?_⟩
  rcases validate_outcome hparse true with ⟨reduced, hok⟩ | ⟨error, hsemantic, -⟩ | hexcessive
  · cases (hresult true).symm.trans hok
  · cases (hresult true).symm.trans hsemantic
  · exact hexcessive

/-- The same failure, in both modes. -/
theorem validate_zeros : ∃ program,
    parseSource (String.ofList (zeros 4301 ++ [';'])) "zeros.fn" = .ok program ∧
    ∀ strict, (validate strict program).result = .error (.tooManyDigits 4301) :=
  validate_of_zeros (by decide) "zeros.fn"

end LetLang
