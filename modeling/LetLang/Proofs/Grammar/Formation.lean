import LetLang.Proofs.Grammar.Completeness
import LetLang.Proofs.Source.TypeText

/-!
# How the trees of a source are formed

A tree can hold any node in any place. In a tree that was parsed from a source text every node has a
standing, as the program, a statement, an expression or a branch of a conditional: a place that needs
a node holds one of the right standing, every name is one of an identifier, and a type stands only in
a declaration (`Tree.Formed`). The numbers are literals of the source; in a tree that was reduced they
are values instead, and otherwise such a tree is formed in the same way.

The tokens of a source are items (`isItem_of_mem_tokensOf`), and a tree that is derived from items is
formed (`IsProgram.formed`). So parsed programs are (`formed_of_parseSource`).
-/

set_option autoImplicit false

namespace LetLang

/-! ### Formed trees -/

/-- What a node stands for. -/
inductive Standing
  | program
  | statement
  | expression
  | branch

/-- How the numbers of a tree are given: as they are written in a source, or by their values, as a
reduction leaves them. -/
inductive Stage
  | written
  | reduced

/-- A tree in which every node has a standing. -/
inductive Tree.Formed : Stage → Standing → Tree → Prop
  | program {stage : Stage} {statements : List Tree}
      (hstatements : ∀ statement ∈ statements, Formed stage .statement statement) :
      Formed stage .program (.program statements)
  | declaration {stage : Stage} {keyword : DeclKeyword} {name : String} {type value : Tree}
      (hname : IsName name) (htype : IsNamedType type) (hvalue : Formed stage .expression value) :
      Formed stage .statement (.declaration keyword (some name) type value)
  | assignment {stage : Stage} {name : String} {value : Tree} (hname : IsName name)
      (hvalue : Formed stage .expression value) :
      Formed stage .statement (.assignment (some name) value)
  | statement {stage : Stage} {expression : Tree} (hexpression : Formed stage .expression expression) :
      Formed stage .statement (.statement expression)
  | arith {stage : Stage} {op : ArithOp} {left right : Tree} (hleft : Formed stage .expression left)
      (hright : Formed stage .expression right) : Formed stage .expression (.arith op left right)
  | comparison {stage : Stage} {op : CompareOp} {left right : Tree}
      (hleft : Formed stage .expression left) (hright : Formed stage .expression right) :
      Formed stage .expression (.comparison left op right)
  | call {stage : Stage} {name : String} {arguments : List Tree} (hname : IsName name)
      (harguments : ∀ argument ∈ arguments, Formed stage .expression argument) :
      Formed stage .expression (.call (some name) arguments)
  | block {stage : Stage} {statements : List Tree} {result : Tree}
      (hstatements : ∀ statement ∈ statements, Formed stage .statement statement)
      (hresult : result.isPresent = true → Formed stage .expression result) :
      Formed stage .expression (.block statements result)
  | branch {stage : Stage} {condition body : Tree} (hcondition : Formed stage .expression condition)
      (hbody : Formed stage .expression body) : Formed stage .branch (.branch condition body)
  | conditional {stage : Stage} {condition body otherwise : Tree} {branches : List Tree}
      (hcondition : Formed stage .expression condition) (hbody : Formed stage .expression body)
      (hbranches : ∀ branch ∈ branches, Formed stage .branch branch)
      (hotherwise : otherwise.isPresent = true → Formed stage .expression otherwise) :
      Formed stage .expression (.conditional condition body branches otherwise)
  | negation {stage : Stage} {factor : Tree} (hfactor : Formed stage .expression factor) :
      Formed stage .expression (.negation factor)
  | parenthesized {stage : Stage} {expression : Tree}
      (hexpression : Formed stage .expression expression) :
      Formed stage .expression (.parenthesized expression)
  | identifier {stage : Stage} {name : String} (hname : IsName name) :
      Formed stage .expression (.identifier (some name))
  | literal {text : String} (htext : Piece.IsNumber text.toList) :
      Formed .written .expression (.literal (some text))
  | integer (value : Int) : Formed .reduced .expression (.integer value)
  | float (value : Binary64) : Formed .reduced .expression (.float value)

/-! ### Items -/

/-- The tokens of a text are items. -/
theorem isItem_of_mem_tokensOf {text : List Char} {token : Token} (htoken : token ∈ tokensOf text) :
    IsItem token := by
  obtain ⟨piece, hpiece, htoken⟩ := List.mem_filterMap.mp htoken
  obtain ⟨c, rest, rfl⟩ := Piece.exists_first_of_mem_cut hpiece
  rcases Piece.fits_first c rest with hfits | hstray
  · generalize (Piece.first c rest).1 = piece at hfits htoken
    cases hfits with
    | @word c more _ hstart hmore =>
      cases htoken
      have hword : IsWord (c :: more) := ⟨c, more, rfl, hstart, hmore⟩
      rw [wordKind]
      split_ifs with hkeyword hname
      · exact .keyword (by simpa using hkeyword)
      · exact .dataType (by simpa using hname)
      · exact .identifier hword (by simpa using hkeyword) (by simpa using hname)
    | number htext =>
      cases htoken
      exact .number htext
    | operator hkind =>
      cases htoken
      exact .operator hkind
    | _ => cases htoken
  · rw [hstray] at htoken
    cases htoken

namespace IsItem

variable {token : Token}

theorem exists_lexeme (hitem : IsItem token) : ∃ text, token.lexeme = some text := by
  cases hitem <;> exact ⟨_, rfl⟩

/-- An identifier has the name of one. -/
theorem exists_name (hitem : IsItem token) (hkind : token.kind = .identifier) :
    ∃ name, token.lexeme = some name ∧ IsName name := by
  obtain ⟨name, hname⟩ := hitem.exists_lexeme
  refine ⟨name, hname, String.ofList token.spelling, "", ?_⟩
  have hlexes : Lexes (token.spelling ++ []) [token] := hitem.lexes (fun _ hc ↦ nomatch hc) lexes_nil
  rw [tokens_lex, String.toList_ofList, ← List.append_nil token.spelling, hlexes.tokens, ← hkind,
    ← hname]
  exact List.mem_cons_self

/-- A literal has the text of a number. -/
theorem exists_number (hitem : IsItem token) (hkind : token.kind = .numberLiteral) :
    ∃ text, token.lexeme = some text ∧ Piece.IsNumber text.toList := by
  cases hitem with
  | @number text htext => exact ⟨_, rfl, by rwa [String.toList_ofList]⟩
  | operator hmem =>
    have htable : ∀ entry ∈ operators, entry.2 ≠ .numberLiteral := by decide
    exact absurd hkind (htable _ hmem)
  | _ => cases hkind

/-- The literals of a source are not classed yet. -/
theorem untyped (hitem : IsItem token) :
    ¬ (token.kind = .integerLiteral ∨ token.kind = .floatLiteral) := by
  cases hitem with
  | operator hmem =>
    have htable : ∀ entry ∈ operators, ¬ (entry.2 = .integerLiteral ∨ entry.2 = .floatLiteral) := by
      decide
    exact htable _ hmem
  | _ => simp

end IsItem

/-- All tokens of a list are items. -/
abbrev AreItems (tokens : List Token) : Prop := ∀ token ∈ tokens, IsItem token

/-! ### Trees derived from items -/

mutual

theorem IsType.named {tree : Tree} {tokens : List Token} (h : IsType tree tokens)
    (hitems : AreItems tokens) : IsNamedType tree := by
  match h with
  | .basic _ _ => exact .basic _
  | .constant _ _ _ hresult =>
    simp only [List.forall_mem_cons] at hitems
    exact .function .nil (hresult.named hitems.2.2.2)
  | .function _ hparameters _ _ hresult =>
    simp only [List.forall_mem_cons, List.forall_mem_append] at hitems
    exact .function (hparameters.named hitems.2.1) (hresult.named hitems.2.2.2.2)

theorem IsParameter.exists_named {tree : Tree} {tokens : List Token} (h : IsParameter tree tokens)
    (hitems : AreItems tokens) :
    ∃ name type, tree = .parameter (some name) type ∧ IsName name ∧ IsNamedType type := by
  match h with
  | .named hkind _ htype =>
    simp only [List.forall_mem_cons] at hitems
    obtain ⟨name, hlexeme, hname⟩ := hitems.1.exists_name hkind
    exact ⟨name, _, by rw [hlexeme], hname, htype.named hitems.2.2⟩

theorem AreParameters.named {trees : List Tree} {tokens : List Token} (h : AreParameters trees tokens)
    (hitems : AreItems tokens) : AreNamedParameters trees := by
  match h with
  | .one hparameter =>
    obtain ⟨name, type, rfl, hname, htype⟩ := hparameter.exists_named hitems
    exact .cons hname htype .nil
  | .more hparameter _ hrest =>
    simp only [List.forall_mem_cons, List.forall_mem_append] at hitems
    obtain ⟨name, type, rfl, hname, htype⟩ := hparameter.exists_named hitems.1
    exact .cons hname htype (hrest.named hitems.2.2)

end

mutual

theorem IsFactor.formed {tree : Tree} {tokens : List Token} (h : IsFactor tree tokens)
    (hitems : AreItems tokens) : tree.Formed .written .expression := by
  match h with
  | .literal hkind =>
    obtain ⟨text, hlexeme, htext⟩ := (hitems _ List.mem_cons_self).exists_number hkind
    rw [hlexeme]
    exact .literal htext
  | .number hkind _ => exact absurd hkind (hitems _ List.mem_cons_self).untyped
  | .identifier hkind =>
    obtain ⟨name, hlexeme, hname⟩ := (hitems _ List.mem_cons_self).exists_name hkind
    rw [hlexeme]
    exact .identifier hname
  | .emptyCall hkind _ _ =>
    obtain ⟨name, hlexeme, hname⟩ := (hitems _ List.mem_cons_self).exists_name hkind
    rw [hlexeme]
    exact .call hname (List.forall_mem_nil _)
  | .call hkind _ harguments _ =>
    simp only [List.forall_mem_cons, List.forall_mem_append] at hitems
    obtain ⟨name, hlexeme, hname⟩ := hitems.1.exists_name hkind
    rw [hlexeme]
    exact .call hname (harguments.formed hitems.2.2.1)
  | .parenthesized _ hinner _ =>
    simp only [List.forall_mem_cons, List.forall_mem_append] at hitems
    exact .parenthesized (hinner.formed hitems.2.1)

theorem AreArguments.formed {trees : List Tree} {tokens : List Token}
    (h : AreArguments trees tokens) (hitems : AreItems tokens) :
    ∀ tree ∈ trees, tree.Formed .written .expression := by
  match h with
  | .one hargument => exact List.forall_mem_singleton.mpr (hargument.formed hitems)
  | .more hargument _ hrest =>
    simp only [List.forall_mem_cons, List.forall_mem_append] at hitems
    exact List.forall_mem_cons.mpr ⟨hargument.formed hitems.1, hrest.formed hitems.2.2⟩

theorem IsTerm.formed {tree : Tree} {tokens : List Token} (h : IsTerm tree tokens)
    (hitems : AreItems tokens) : tree.Formed .written .expression := by
  match h with
  | .factor hfactor => exact hfactor.formed hitems
  | .negation _ hfactor => exact .negation (hfactor.formed (List.forall_mem_cons.mp hitems).2)
  | .step hleft _ hright =>
    simp only [List.forall_mem_cons, List.forall_mem_append] at hitems
    exact .arith (hleft.formed hitems.1) (hright.formed hitems.2.2)

theorem IsAdditive.formed {tree : Tree} {tokens : List Token} (h : IsAdditive tree tokens)
    (hitems : AreItems tokens) : tree.Formed .written .expression := by
  match h with
  | .term hterm => exact hterm.formed hitems
  | .step hleft _ hright =>
    simp only [List.forall_mem_cons, List.forall_mem_append] at hitems
    exact .arith (hleft.formed hitems.1) (hright.formed hitems.2.2)

theorem IsExpression.formed {tree : Tree} {tokens : List Token} (h : IsExpression tree tokens)
    (hitems : AreItems tokens) : tree.Formed .written .expression := by
  match h with
  | .block hblock => exact hblock.formed hitems
  | .conditional hconditional => exact hconditional.formed hitems
  | .additive hadditive => exact hadditive.formed hitems
  | .comparison hleft _ hright =>
    simp only [List.forall_mem_cons, List.forall_mem_append] at hitems
    exact .comparison (hleft.formed hitems.1) (hright.formed hitems.2.2)

theorem IsEnded.formed {tree : Tree} {tokens : List Token} (h : IsEnded tree tokens)
    (hitems : AreItems tokens) : tree.Formed .written .statement := by
  match h with
  | .declaration _ hkind _ htype _ hvalue _ =>
    simp only [List.forall_mem_cons, List.forall_mem_append] at hitems
    obtain ⟨-, hidentifier, -, htypeItems, -, hvalueItems, -⟩ := hitems
    obtain ⟨name, hlexeme, hname⟩ := hidentifier.exists_name hkind
    rw [hlexeme]
    exact .declaration hname (htype.named htypeItems) (hvalue.formed hvalueItems)
  | .assignment hkind _ hvalue _ =>
    simp only [List.forall_mem_cons, List.forall_mem_append] at hitems
    obtain ⟨name, hlexeme, hname⟩ := hitems.1.exists_name hkind
    rw [hlexeme]
    exact .assignment hname (hvalue.formed hitems.2.2.1)
  | .expression hexpression _ =>
    exact .statement (hexpression.formed (List.forall_mem_append.mp hitems).1)

theorem IsStatement.formed {tree : Tree} {tokens : List Token} (h : IsStatement tree tokens)
    (hitems : AreItems tokens) : tree.Formed .written .statement := by
  match h with
  | .ended hended => exact hended.formed hitems
  | .braced _ hexpression => exact .statement (hexpression.formed hitems)

theorem AreStatements.formed {trees : List Tree} {tokens : List Token}
    (h : AreStatements trees tokens) (hitems : AreItems tokens) :
    ∀ tree ∈ trees, tree.Formed .written .statement := by
  match h with
  | .nil => exact List.forall_mem_nil _
  | .cons hstatement hrest =>
    rw [AreItems, List.forall_mem_append] at hitems
    exact List.forall_mem_cons.mpr ⟨hstatement.formed hitems.1, hrest.formed hitems.2⟩

theorem IsBlock.formed {tree : Tree} {tokens : List Token} (h : IsBlock tree tokens)
    (hitems : AreItems tokens) : tree.Formed .written .expression := by
  match h with
  | .empty .. => exact .block (List.forall_mem_nil _) fun hpresent ↦ nomatch hpresent
  | .ended _ hstatements hlast _ =>
    simp only [List.forall_mem_cons, List.forall_mem_append] at hitems
    obtain ⟨-, hitems, hlastItems, -⟩ := hitems
    refine .block (List.forall_mem_append.mpr ⟨hstatements.formed hitems, ?_⟩) fun h ↦ nomatch h
    exact List.forall_mem_singleton.mpr (hlast.formed hlastItems)
  | .result _ hstatements hresult _ =>
    simp only [List.forall_mem_cons, List.forall_mem_append] at hitems
    exact .block (hstatements.formed hitems.2.1) fun _ ↦ hresult.formed hitems.2.2.1

theorem IsConditional.formed {tree : Tree} {tokens : List Token} (h : IsConditional tree tokens)
    (hitems : AreItems tokens) : tree.Formed .written .expression := by
  match h with
  | .branching _ hcondition hbody hbranches hotherwise =>
    simp only [List.forall_mem_cons, List.forall_mem_append] at hitems
    obtain ⟨-, hconditionItems, hbodyItems, hbranchesItems, hotherwiseItems⟩ := hitems
    exact .conditional (hcondition.formed hconditionItems) (hbody.formed hbodyItems)
      (hbranches.formed hbranchesItems) (hotherwise.formed hotherwiseItems)

theorem AreBranches.formed {trees : List Tree} {tokens : List Token} (h : AreBranches trees tokens)
    (hitems : AreItems tokens) : ∀ tree ∈ trees, tree.Formed .written .branch := by
  match h with
  | .nil => exact List.forall_mem_nil _
  | .cons _ _ hcondition hbody hrest =>
    simp only [List.forall_mem_cons, List.forall_mem_append] at hitems
    obtain ⟨-, -, hconditionItems, hbodyItems, hrestItems⟩ := hitems
    exact List.forall_mem_cons.mpr
      ⟨.branch (hcondition.formed hconditionItems) (hbody.formed hbodyItems),
        hrest.formed hrestItems⟩

theorem IsOtherwise.formed {tree : Tree} {tokens : List Token} (h : IsOtherwise tree tokens)
    (hitems : AreItems tokens) : tree.isPresent = true → tree.Formed .written .expression := by
  match h with
  | .absent => exact fun hpresent ↦ nomatch hpresent
  | .block _ hbody => exact fun _ ↦ hbody.formed (List.forall_mem_cons.mp hitems).2

end

theorem IsProgram.formed {tree : Tree} {tokens : List Token} (h : IsProgram tree tokens)
    (hitems : AreItems tokens) : tree.Formed .written .program := by
  cases h with
  | program hstatements => exact .program (hstatements.formed hitems)

/-! ### Parsed trees -/

/-- What is parsed from the tokens of a text is formed. -/
theorem formed_of_parse {source file : String} {program : Tree}
    (hparse : parse (lex source file).tokens = .ok program) :
    program.Formed .written .program := by
  rw [parse_eq_predict] at hparse
  cases hread : predict (lex source file).tokens with
  | error failure =>
    rw [hread] at hparse
    cases hparse
  | ok tree =>
    rw [hread] at hparse
    cases hparse
    refine (predict_sound hread).1.formed fun token htoken ↦ ?_
    have hmem := (List.takeWhile_prefix _).subset htoken
    rw [tokens_lex, List.mem_append, List.mem_singleton] at hmem
    rcases hmem with hmem | rfl
    · exact isItem_of_mem_tokensOf hmem
    · cases List.all_eq_true.mp List.all_takeWhile _ htoken

/-- A program that was parsed from a source text is formed. -/
theorem formed_of_parseSource {source file : String} {program : Tree}
    (hparse : parseSource source file = .ok program) :
    program.Formed .written .program := by
  cases htokens : tokenize source file with
  | error error =>
    rw [parseSource, htokens] at hparse
    cases hparse
  | ok tokens =>
    rw [parseSource_of_tokenize htokens, ← lex_of_tokenize htokens] at hparse
    cases hread : parse (lex source file).tokens with
    | error failure =>
      rw [hread] at hparse
      cases hparse
    | ok tree =>
      rw [hread] at hparse
      cases hparse
      exact formed_of_parse hread

end LetLang
