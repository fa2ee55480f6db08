import LetLang.Proofs.Grammar.Derivation
import LetLang.Proofs.Grammar.Prediction
import LetLang.Proofs.Run

/-!
# What is read is derived

Every reader that succeeds took tokens off the front of its input which derive the tree that it
yields, and the tree has no more levels than the reader could open. `Yields` says this of one reader
on one input; it composes along `bind`, so each rule of the grammar is one short argument, and
`sound_level` closes the recursion through the levels of nesting.

Tokens that were taken are never the end of the stream. So the tokens of a program are all those
before the first such token (`predict_sound`).
-/

set_option autoImplicit false

namespace LetLang

/-! ### Lists with commas -/

/-- One or more items with commas between them. -/
inductive Separated {α : Type} (item : α → List Token → Prop) : List α → List Token → Prop
  | one {value : α} {tokens : List Token} (hvalue : item value tokens) :
      Separated item [value] tokens
  | more {value : α} {values : List α} {tokens rest : List Token} {comma : Token}
      (hvalue : item value tokens) (hcomma : comma.kind = .comma)
      (hrest : Separated item values rest) :
      Separated item (value :: values) (tokens ++ comma :: rest)

/-- Items in parentheses with commas between them; there may be none. -/
inductive Listed {α : Type} (item : α → List Token → Prop) : List α → List Token → Prop
  | none {left right : Token} (hleft : left.kind = .leftParen) (hright : right.kind = .rightParen) :
      Listed item [] [left, right]
  | some {left right : Token} {values : List α} {tokens : List Token}
      (hleft : left.kind = .leftParen) (hvalues : Separated item values tokens)
      (hright : right.kind = .rightParen) : Listed item values (left :: (tokens ++ [right]))

/-! ### Readers that succeed -/

theorem Token.kind_of_isKeyword {token : Token} {word : Lexeme}
    (hword : token.isKeyword word = true) : token.kind = .keyword := by
  simp only [Token.isKeyword, Bool.and_eq_true, beq_iff_eq] at hword
  exact hword.1

theorem Token.kind_ne_endOfStream_of_isKeyword {token : Token} {word : Lexeme}
    (hword : token.isKeyword word = true) : token.kind ≠ .endOfStream := by
  simp [Token.kind_of_isKeyword hword]

/-- If the reader succeeds on the input, then the tokens it took satisfy the property together with
its value, and none of them ends the stream. -/
def Yields {α : Type} (reader : Reader α) (input : List Token)
    (property : α → List Token → Prop) : Prop :=
  ∀ value rest, reader input = .ok value rest →
    ∃ taken, input = taken ++ rest ∧ (∀ token ∈ taken, token.kind ≠ .endOfStream) ∧
      property value taken

namespace Yields

variable {α β : Type} {input : List Token}

theorem mono {reader : Reader α} {first second : α → List Token → Prop}
    (hreader : Yields reader input first) (himp : ∀ value taken, first value taken →
      second value taken) : Yields reader input second := by
  intro value rest hvalue
  obtain ⟨taken, hinput, hend, hfirst⟩ := hreader value rest hvalue
  exact ⟨taken, hinput, hend, himp value taken hfirst⟩

theorem pure {value : α} {property : α → List Token → Prop} (hvalue : property value []) :
    Yields (Pure.pure value) input property := by
  intro result rest hresult
  cases hresult
  exact ⟨[], rfl, by simp, hvalue⟩

theorem throw {obstacle : Obstacle} {property : α → List Token → Prop} :
    Yields (throwThe Obstacle obstacle) input property := by
  intro result rest hresult
  cases hresult

theorem bind {reader : Reader α} {next : α → Reader β} {first : α → List Token → Prop}
    {second : β → List Token → Prop} (hreader : Yields reader input first)
    (hnext : ∀ value taken rest, first value taken →
      Yields (next value) rest fun result more ↦ second result (taken ++ more)) :
    Yields (reader >>= next) input second := by
  intro result rest hresult
  obtain ⟨value, middle, hvalue, hlast⟩ := Run.exists_of_bind_eq_ok hresult
  obtain ⟨taken, rfl, hend, hfirst⟩ := hreader value middle hvalue
  obtain ⟨more, rfl, hmoreEnd, hsecond⟩ := hnext value taken middle hfirst result rest hlast
  refine ⟨taken ++ more, by rw [List.append_assoc], ?_, hsecond⟩
  intro token htoken
  rcases List.mem_append.mp htoken with hmem | hmem
  · exact hend token hmem
  · exact hmoreEnd token hmem

theorem get {next : List Token → Reader β} {property : β → List Token → Prop}
    (hnext : Yields (next input) input property) :
    Yields (MonadState.get >>= next) input property := hnext

theorem skip {token : Token} {rest : List Token} {next : Unit → Reader β}
    {property : β → List Token → Prop} (hend : token.kind ≠ .endOfStream)
    (hnext : Yields (next ()) rest fun result more ↦ property result (token :: more)) :
    Yields (Reader.skip >>= next) (token :: rest) property := by
  intro result left hresult
  obtain ⟨more, rfl, hmoreEnd, hproperty⟩ := hnext result left hresult
  exact ⟨token :: more, rfl, by simpa using ⟨hend, hmoreEnd⟩, hproperty⟩

theorem expect {kind : TokenKind} {next : Lexeme → Reader β} {property : β → List Token → Prop}
    (hkind : kind ≠ .endOfStream)
    (hnext : ∀ token rest, token.kind = kind →
      Yields (next token.lexeme) rest fun result more ↦ property result (token :: more)) :
    Yields (Reader.expect kind >>= next) input property := by
  intro result left hresult
  by_cases hinput : Reader.nextIs kind input = true
  · obtain ⟨token, rest, rfl, htoken⟩ := Reader.exists_of_nextIs hinput
    rw [Run.bind_of_ok (Reader.expect_cons htoken)] at hresult
    obtain ⟨more, rfl, hmoreEnd, hproperty⟩ := hnext token rest htoken result left hresult
    exact ⟨token :: more, rfl, by simpa using ⟨htoken ▸ hkind, hmoreEnd⟩, hproperty⟩
  · rw [Run.bind_of_error (Reader.expect_of_not (by simpa using hinput))] at hresult
    cases hresult

theorem expectKeyword {word : String} {next : Unit → Reader β} {property : β → List Token → Prop}
    (hnext : ∀ token rest, token.isKeyword word = true →
      Yields (next ()) rest fun result more ↦ property result (token :: more)) :
    Yields (Reader.expectKeyword word >>= next) input property := by
  intro result left hresult
  by_cases hinput : Reader.nextIsKeyword word input = true
  · obtain ⟨token, rest, rfl, htoken⟩ := Reader.exists_of_nextIsKeyword hinput
    rw [Run.bind_of_ok (Reader.expectKeyword_cons htoken)] at hresult
    obtain ⟨more, rfl, hmoreEnd, hproperty⟩ := hnext token rest htoken result left hresult
    exact ⟨token :: more, rfl,
      by simpa using ⟨Token.kind_ne_endOfStream_of_isKeyword htoken, hmoreEnd⟩, hproperty⟩
  · rw [Run.bind_of_error (Reader.expectKeyword_of_not (by simpa using hinput))] at hresult
    cases hresult

theorem accept {kind : TokenKind} {next : Bool → Reader β} {property : β → List Token → Prop}
    (hkind : kind ≠ .endOfStream)
    (hyes : ∀ token rest, token.kind = kind →
      Yields (next true) rest fun result more ↦ property result (token :: more))
    (hno : Reader.nextIs kind input = false → Yields (next false) input property) :
    Yields (Reader.accept kind >>= next) input property := by
  intro result left hresult
  by_cases hinput : Reader.nextIs kind input = true
  · obtain ⟨token, rest, rfl, htoken⟩ := Reader.exists_of_nextIs hinput
    rw [Run.bind_of_ok (Reader.accept_cons htoken)] at hresult
    obtain ⟨more, rfl, hmoreEnd, hproperty⟩ := hyes token rest htoken result left hresult
    exact ⟨token :: more, rfl, by simpa using ⟨htoken ▸ hkind, hmoreEnd⟩, hproperty⟩
  · have hnot : Reader.nextIs kind input = false := by simpa using hinput
    rw [Run.bind_of_ok (Reader.accept_of_not hnot)] at hresult
    exact hno hnot result left hresult

/-- What was taken is the front of the input. -/
theorem front {reader : Reader α} {property : α → List Token → Prop}
    (hreader : Yields reader input property) :
    Yields reader input fun value taken ↦ property value taken ∧ taken <+: input := by
  intro value rest hvalue
  obtain ⟨taken, rfl, hend, hproperty⟩ := hreader value rest hvalue
  exact ⟨taken, rfl, hend, hproperty, List.prefix_append taken rest⟩

end Yields

/-! ### Lists -/

section

variable {α : Type} {item : Reader α} {property : α → List Token → Prop}

theorem yields_afterCommas (hitem : ∀ input, Yields item input property) (rounds : Nat) :
    ∀ (input : List Token) (first : α) (taken : List Token), property first taken →
      Yields (Reader.afterCommas item rounds) input fun rest more ↦
        Separated property (first :: rest) (taken ++ more) := by
  induction rounds with
  | zero =>
    intro input first taken hfirst
    exact Yields.pure (by simpa using Separated.one hfirst)
  | succ rounds ih =>
    intro input first taken hfirst
    refine Yields.accept (by decide) (fun comma rest hcomma ↦ ?_) fun _ ↦ ?_
    · refine Yields.bind (hitem rest) fun second secondTaken rest hsecond ↦ ?_
      refine Yields.bind (ih rest second secondTaken hsecond) fun others more _ hothers ↦ ?_
      exact Yields.pure (by simpa using Separated.more hfirst hcomma hothers)
    · exact Yields.pure (by simpa using Separated.one hfirst)

theorem yields_listed (hitem : ∀ input, Yields item input property) (rounds : Nat)
    (input : List Token) : Yields (Reader.listed rounds item) input (Listed property) := by
  refine Yields.expect (by decide) fun left rest hleft ↦ Yields.get ?_
  split
  · refine Yields.expect (by decide) fun right _ hright ↦ ?_
    exact Yields.pure (Listed.none hleft hright)
  · refine Yields.bind (hitem rest) fun first taken rest hfirst ↦ ?_
    refine Yields.bind (yields_afterCommas hitem rounds rest first taken hfirst)
      fun others more _ hothers ↦ ?_
    refine Yields.expect (by decide) fun right _ hright ↦ ?_
    exact Yields.pure (by simpa using Listed.some hleft hothers hright)

end

/-! ### Types -/

/-- A tree that the tokens derive, with at most the given number of levels. -/
def Within (levels : Nat) (derives : Tree → List Token → Prop) (tree : Tree)
    (tokens : List Token) : Prop :=
  derives tree tokens ∧ tree.nesting ≤ levels

theorem DataType.name_of_ofName? {text : String} {type : DataType}
    (htype : DataType.ofName? text = some type) : text = type.name := by
  unfold DataType.ofName? at htype
  repeat' split at htype
  all_goals cases htype
  all_goals assumption

/-- What a level reads is derived, and has no more levels than it may open. -/
structure SoundLevel (level : ReaderLevel) (levels : Nat) : Prop where
  type : ∀ input, Yields level.type input (Within levels IsType)
  expression : ∀ input, Yields level.expression input fun tree taken ↦
    IsExpression tree taken ∧ tree.nesting + 1 ≤ levels

section

variable {levels : Nat} {type : Reader Tree}

theorem yields_parameter (htype : ∀ input, Yields type input (Within levels IsType))
    (input : List Token) : Yields (Reader.parameter type) input (Within levels IsParameter) := by
  refine Yields.expect (by decide) fun name _ hname ↦ ?_
  refine Yields.expect (by decide) fun colon rest hcolon ↦ ?_
  refine Yields.bind (htype rest) fun type taken _ htype ↦ ?_
  exact Yields.pure ⟨by simpa using .named hname hcolon htype.1, htype.2⟩

theorem areParameters_of_separated {parameters : List Tree} {tokens : List Token}
    (h : Separated (Within levels IsParameter) parameters tokens) :
    AreParameters parameters tokens ∧ Tree.nestings parameters ≤ levels := by
  induction h with
  | one hparameter => exact ⟨.one hparameter.1, by simpa [Tree.nestings] using hparameter.2⟩
  | more hparameter hcomma _ ih =>
    exact ⟨.more hparameter.1 hcomma ih.1, Nat.max_le.mpr ⟨hparameter.2, ih.2⟩⟩

theorem yields_functionType (htype : ∀ input, Yields type input (Within levels IsType))
    (rounds : Nat) (input : List Token) :
    Yields (Reader.functionType rounds type) input (Within (levels + 1) IsType) := by
  refine Yields.bind (yields_listed (yields_parameter htype) rounds input)
    fun parameters taken _ hparameters ↦ ?_
  refine Yields.expect (by decide) fun arrow rest harrow ↦ ?_
  refine Yields.bind (htype rest) fun result more _ hresult ↦ Yields.pure ?_
  obtain ⟨hresult, hresultLevels⟩ := hresult
  cases hparameters with
  | none hleft hright =>
    exact ⟨by simpa using IsType.constant hleft hright harrow hresult, by
      simpa [Tree.nesting, Tree.nestings] using hresultLevels⟩
  | some hleft hvalues hright =>
    obtain ⟨hderived, hlevels⟩ := areParameters_of_separated hvalues
    exact ⟨by simpa using IsType.function hleft hderived hright harrow hresult,
      Nat.succ_le_succ (Nat.max_le.mpr ⟨hlevels, hresultLevels⟩)⟩

theorem yields_typeWith {function : Reader Tree} {input : List Token}
    (hfunction : Yields function input (Within levels IsType)) :
    Yields (Reader.typeWith function) input (Within levels IsType) := by
  refine Yields.get ?_
  cases input with
  | nil => exact Yields.throw
  | cons token rest =>
    simp only [List.head?_cons]
    split
    · next hkind =>
      have hdata : token.kind = .dataType := by simpa using hkind
      split
      · next name hname =>
        obtain ⟨text, hlexeme, hname⟩ := Option.bind_eq_some_iff.mp hname
        refine Yields.skip (by simp [hdata]) (Yields.pure ⟨.basic hdata ?_, Nat.zero_le _⟩)
        rw [hlexeme, DataType.name_of_ofName? hname]
      · exact Yields.throw
    · split
      · exact hfunction
      · exact Yields.throw

theorem yields_type (rounds levels : Nat) :
    ∀ input, Yields (Reader.type rounds levels) input (Within levels IsType) := by
  induction levels with
  | zero => exact fun input ↦ yields_typeWith Yields.throw
  | succ levels ih => exact fun input ↦ yields_typeWith (yields_functionType ih rounds input)

end

/-! ### Expressions -/

theorem yields_chain {operation? : TokenKind → Option ArithOp} {operand : Reader Tree}
    {whole part : Tree → List Token → Prop} (hend : operation? .endOfStream = none)
    (hoperand : ∀ input, Yields operand input part)
    (hstep : ∀ {left right : Tree} {operator : Token} {op : ArithOp} {taken more : List Token},
      whole left taken → operation? operator.kind = some op → part right more →
        whole (.arith op left right) (taken ++ operator :: more)) (rounds : Nat) :
    ∀ (input : List Token) (left : Tree) (taken : List Token), whole left taken →
      Yields (Reader.chain operation? operand rounds left) input fun tree more ↦
        whole tree (taken ++ more) := by
  induction rounds with
  | zero => exact fun input left taken hleft ↦ Yields.pure (by simpa using hleft)
  | succ rounds ih =>
    intro input left taken hleft
    refine Yields.get ?_
    split
    · next op hop =>
      obtain ⟨operator, hoperator, hop⟩ := Option.bind_eq_some_iff.mp hop
      obtain ⟨rest, rfl⟩ := List.head?_eq_some_iff.mp hoperator
      have hnotEnd : operator.kind ≠ .endOfStream := fun hkind ↦ by simp [hkind, hend] at hop
      refine Yields.skip hnotEnd ?_
      refine Yields.bind (hoperand rest) fun right more rest hright ↦ ?_
      refine Yields.mono (ih rest _ _ (hstep hleft hop hright)) fun tree others htree ↦ ?_
      simpa using htree
    · exact Yields.pure (by simpa using hleft)

theorem Tree.nesting_of_isNumber {tree : Tree} (hnumber : tree.isNumber = true) :
    tree.nesting = 0 := by
  cases tree <;> simp_all [Tree.isNumber, Tree.nesting]

theorem areArguments_of_separated {levels : Nat} {arguments : List Tree} {tokens : List Token}
    (h : Separated (fun tree taken ↦ IsExpression tree taken ∧ tree.nesting + 1 ≤ levels)
      arguments tokens) :
    AreArguments arguments tokens ∧ Tree.argumentNestings arguments ≤ levels := by
  induction h with
  | one hargument => exact ⟨.one hargument.1, by simpa [Tree.argumentNestings] using hargument.2⟩
  | more hargument hcomma _ ih =>
    exact ⟨.more hargument.1 hcomma ih.1, Nat.max_le.mpr ⟨hargument.2, ih.2⟩⟩

section

variable {levels : Nat} {level : ReaderLevel} (hlevel : SoundLevel level levels) (rounds : Nat)

include hlevel

theorem yields_factor (input : List Token) :
    Yields (Reader.factor rounds level) input (Within levels IsFactor) := by
  refine Yields.get ?_
  cases input with
  | nil => exact Yields.throw
  | cons token rest =>
    simp only [List.head?_cons]
    split
    · next hkind =>
      have hliteral : token.kind = .numberLiteral := by simpa using hkind
      exact Yields.skip (by simp [hliteral]) (Yields.pure ⟨.literal hliteral, Nat.zero_le _⟩)
    split
    · next hnumber hkind =>
      unfold Reader.typedLiteral
      split
      · next number hread =>
        have htyped : token.kind = .integerLiteral ∨ token.kind = .floatLiteral := by
          cases htoken : token.kind <;> simp_all [TokenKind.isLiteral]
        have hlevels : number.nesting ≤ levels := by
          rw [Tree.nesting_of_isNumber (Token.isNumber_of_number? hread)]
          exact Nat.zero_le levels
        refine Yields.skip ?_ (Yields.pure ⟨.number htyped hread, hlevels⟩)
        rcases htyped with htoken | htoken <;> simp [htoken]
      · exact Yields.throw
    split
    · next hkind =>
      have hname : token.kind = .identifier := by simpa using hkind
      refine Yields.skip (by simp [hname]) (Yields.get ?_)
      split
      · refine Yields.bind (yields_listed hlevel.expression rounds rest)
          fun arguments taken _ harguments ↦ Yields.pure ?_
        cases harguments with
        | none hleft hright =>
          exact ⟨by simpa using IsFactor.emptyCall hname hleft hright, Nat.zero_le _⟩
        | some hleft hvalues hright =>
          obtain ⟨hderived, hnesting⟩ := areArguments_of_separated hvalues
          exact ⟨by simpa using IsFactor.call hname hleft hderived hright, hnesting⟩
      · exact Yields.pure ⟨.identifier hname, Nat.zero_le _⟩
    split
    · next hkind =>
      have hleft : token.kind = .leftParen := by simpa using hkind
      refine Yields.skip (by simp [hleft]) ?_
      refine Yields.bind (hlevel.expression rest) fun inner taken _ hinner ↦ ?_
      refine Yields.expect (by decide) fun right _ hright ↦ Yields.pure ?_
      exact ⟨IsFactor.parenthesized hleft hinner.1 hright, hinner.2⟩
    · exact Yields.throw

theorem yields_term (input : List Token) :
    Yields (Reader.term rounds level) input (Within levels IsTerm) := by
  have hchain : ∀ input left taken, Within levels IsTerm left taken →
      Yields (Reader.chain multiplicativeOp? (Reader.factor rounds level) rounds left) input
        fun tree more ↦ Within levels IsTerm tree (taken ++ more) :=
    yields_chain rfl (yields_factor hlevel rounds)
      (fun hleft hop hright ↦
        ⟨.step hleft.1 hop hright.1, Nat.max_le.mpr ⟨hleft.2, hright.2⟩⟩) rounds
  refine Yields.accept (by decide) (fun sign rest hsign ↦ ?_) fun _ ↦ ?_
  · refine Yields.bind (yields_factor hlevel rounds rest) fun first taken rest hfirst ↦ ?_
    exact hchain rest _ (sign :: taken) ⟨.negation hsign hfirst.1, hfirst.2⟩
  · refine Yields.bind (yields_factor hlevel rounds input) fun first taken rest hfirst ↦ ?_
    exact hchain rest first taken ⟨.factor hfirst.1, hfirst.2⟩

theorem yields_additive (input : List Token) :
    Yields (Reader.additive rounds level) input (Within levels IsAdditive) := by
  refine Yields.bind (yields_term hlevel rounds input) fun first taken rest hfirst ↦ ?_
  exact yields_chain rfl (yields_term hlevel rounds)
    (fun hleft hop hright ↦
      ⟨.step hleft.1 hop hright.1, Nat.max_le.mpr ⟨hleft.2, hright.2⟩⟩)
    rounds rest first taken ⟨.term hfirst.1, hfirst.2⟩

theorem yields_comparison (input : List Token) :
    Yields (Reader.comparison rounds level) input (Within levels IsExpression) := by
  refine Yields.bind (yields_additive hlevel rounds input) fun left taken rest hleft ↦ ?_
  refine Yields.get ?_
  split
  · next op hop =>
    obtain ⟨operator, hoperator, hop⟩ := Option.bind_eq_some_iff.mp hop
    obtain ⟨rest, rfl⟩ := List.head?_eq_some_iff.mp hoperator
    have hnotEnd : operator.kind ≠ .endOfStream := fun hkind ↦ by
      simp [hkind, CompareOp.ofKind?] at hop
    refine Yields.skip hnotEnd ?_
    refine Yields.bind (yields_additive hlevel rounds rest) fun right more _ hright ↦ ?_
    exact Yields.pure ⟨by simpa using IsExpression.comparison hleft.1 hop hright.1,
      Nat.max_le.mpr ⟨hleft.2, hright.2⟩⟩
  · exact Yields.pure ⟨by simpa using IsExpression.additive hleft.1, hleft.2⟩

/-! ### Statements -/

theorem yields_declaration {input : List Token} {keyword : DeclKeyword}
    (hkeyword : Reader.declKeyword? input = some keyword) :
    Yields (Reader.declaration level keyword) input (Within levels IsEnded) := by
  obtain ⟨word, rest, rfl, hword⟩ := Reader.exists_of_declKeyword? hkeyword
  refine Yields.skip (Token.kind_ne_endOfStream_of_isKeyword hword) ?_
  refine Yields.expect (by decide) fun name _ hname ↦ ?_
  refine Yields.expect (by decide) fun colon rest hcolon ↦ ?_
  refine Yields.bind (hlevel.type rest) fun type typeTaken _ htype ↦ ?_
  refine Yields.expect (by decide) fun equals rest hequals ↦ ?_
  refine Yields.bind (hlevel.expression rest) fun value valueTaken _ hvalue ↦ ?_
  refine Yields.expect (by decide) fun semicolon _ hsemicolon ↦ Yields.pure ?_
  exact ⟨by simpa using
      IsEnded.declaration hword hname hcolon htype.1 hequals hvalue.1 hsemicolon,
    Nat.max_le.mpr ⟨htype.2, hvalue.2⟩⟩

theorem yields_assignment (input : List Token) :
    Yields (Reader.assignment level) input (Within levels IsEnded) := by
  refine Yields.expect (by decide) fun name _ hname ↦ ?_
  refine Yields.expect (by decide) fun equals rest hequals ↦ ?_
  refine Yields.bind (hlevel.expression rest) fun value taken _ hvalue ↦ ?_
  refine Yields.expect (by decide) fun semicolon _ hsemicolon ↦ Yields.pure ?_
  exact ⟨by simpa using IsEnded.assignment hname hequals hvalue.1 hsemicolon, hvalue.2⟩

theorem yields_expressionStatement (input : List Token) :
    Yields (Reader.expressionStatement level) input (Within levels IsStatement) := by
  refine Yields.bind (hlevel.expression input) fun expression taken rest hexpression ↦ ?_
  have hended : ∀ semicolon : Token, semicolon.kind = .semicolon →
      Within levels IsStatement (.statement expression) (taken ++ [semicolon]) :=
    fun semicolon hsemicolon ↦ ⟨.ended (.expression hexpression.1 hsemicolon), hexpression.2⟩
  split
  · next hbraced =>
    refine Yields.accept (by decide) (fun semicolon _ hsemicolon ↦ ?_) fun _ ↦ ?_
    · exact Yields.pure (hended semicolon hsemicolon)
    · exact Yields.pure ⟨by simpa using IsStatement.braced hbraced hexpression.1, hexpression.2⟩
  · refine Yields.expect (by decide) fun semicolon _ hsemicolon ↦ ?_
    exact Yields.pure (hended semicolon hsemicolon)

theorem yields_statement (input : List Token) :
    Yields (Reader.statement level) input (Within levels IsStatement) := by
  refine Yields.get ?_
  split
  · next keyword hkeyword =>
    exact (yields_declaration hlevel hkeyword).mono fun tree taken htree ↦
      ⟨.ended htree.1, htree.2⟩
  · refine Yields.get ?_
    split
    · exact (yields_assignment hlevel input).mono fun tree taken htree ↦ ⟨.ended htree.1, htree.2⟩
    · exact yields_expressionStatement hlevel input

/-! ### Blocks -/

end

/-- A block with one more statement at its front, which ends with a semicolon. -/
theorem IsBlock.cons_ended {statements : List Tree} {first result : Tree} {left : Token}
    {tokens rest : List Token} (hblock : IsBlock (.block statements result) (left :: rest))
    (hfirst : IsEnded first tokens) :
    IsBlock (.block (first :: statements) result) (left :: (tokens ++ rest)) := by
  cases hblock with
  | empty hleft hright => simpa using IsBlock.ended hleft .nil hfirst hright
  | ended hleft hstatements hlast hright =>
    simpa using IsBlock.ended hleft (.cons (.ended hfirst) hstatements) hlast hright
  | result hleft hstatements hresult hright =>
    simpa using IsBlock.result hleft (.cons (.ended hfirst) hstatements) hresult hright

/-- A block with one more statement at its front, which is not directly before the closing
brace. -/
theorem IsBlock.cons {statements : List Tree} {first result : Tree} {left : Token}
    {tokens rest : List Token} (hblock : IsBlock (.block statements result) (left :: rest))
    (hfirst : IsStatement first tokens) (hrest : Reader.nextIs .rightCurly rest = false) :
    IsBlock (.block (first :: statements) result) (left :: (tokens ++ rest)) := by
  cases hblock with
  | empty _ hright => simp [hright] at hrest
  | ended hleft hstatements hlast hright =>
    simpa using IsBlock.ended hleft (.cons hfirst hstatements) hlast hright
  | result hleft hstatements hresult hright =>
    simpa using IsBlock.result hleft (.cons hfirst hstatements) hresult hright

theorem IsBlock.two_le_length {tree : Tree} {tokens : List Token} (hblock : IsBlock tree tokens) :
    2 ≤ tokens.length := by
  cases hblock <;> simp only [List.length_cons, List.length_append, List.length_nil] <;> omega

/-- Tokens that make a block of the given elements when an opening brace stands before them. -/
def AreElements (levels : Nat) (elements : List Tree × Tree) (tokens : List Token) : Prop :=
  (∀ left : Token, left.kind = .leftCurly →
    IsBlock (.block elements.1 elements.2) (left :: tokens)) ∧
  (Tree.block elements.1 elements.2).nesting ≤ levels

theorem Tree.nesting_block_cons (first result : Tree) (statements : List Tree) :
    (Tree.block (first :: statements) result).nesting =
      max first.nesting (Tree.block statements result).nesting := by
  simp [Tree.nesting, Tree.nestings, Nat.max_assoc]

theorem Tree.nesting_block_nil {result : Tree} {levels : Nat} (hresult : result.nesting + 1 ≤ levels) :
    (Tree.block [] result).nesting ≤ levels := by
  simp only [Tree.nesting, Tree.nestings]
  split <;> omega

namespace AreElements

variable {levels : Nat} {elements : List Tree × Tree} {first : Tree} {tokens rest : List Token}

theorem cons_ended (helements : AreElements levels elements rest)
    (hfirst : Within levels IsEnded first tokens) :
    AreElements levels (first :: elements.1, elements.2) (tokens ++ rest) := by
  refine ⟨fun left hleft ↦ (helements.1 left hleft).cons_ended hfirst.1, ?_⟩
  rw [Tree.nesting_block_cons]
  exact Nat.max_le.mpr ⟨hfirst.2, helements.2⟩

theorem cons (helements : AreElements levels elements rest)
    (hfirst : Within levels IsStatement first tokens)
    (hrest : Reader.nextIs .rightCurly rest = false) :
    AreElements levels (first :: elements.1, elements.2) (tokens ++ rest) := by
  refine ⟨fun left hleft ↦ (helements.1 left hleft).cons hfirst.1 hrest, ?_⟩
  rw [Tree.nesting_block_cons]
  exact Nat.max_le.mpr ⟨hfirst.2, helements.2⟩

/-- There is always the closing brace. -/
theorem ne_nil (helements : AreElements levels elements tokens) : tokens ≠ [] := by
  rintro rfl
  have hblock := (helements.1 ⟨.leftCurly, none⟩ rfl).two_le_length
  simp at hblock

end AreElements

theorem Yields.prepend {input : List Token} {first : Tree} {elements : Reader (List Tree × Tree)}
    {before after : List Tree × Tree → List Token → Prop} (helements : Yields elements input before)
    (himp : ∀ elements more, before elements more → after (first :: elements.1, elements.2) more) :
    Yields (Reader.prepend first elements) input after := by
  refine Yields.bind helements fun elements more _ hbefore ↦ Yields.pure ?_
  simpa using himp elements more hbefore

section

variable {levels : Nat} {level : ReaderLevel}

theorem yields_closingBrace (input : List Token) :
    Yields (do let _ ← Reader.expect .rightCurly; return ([], .absent)) input
      (AreElements levels) := by
  refine Yields.expect (by decide) fun right _ hright ↦ Yields.pure ⟨fun left hleft ↦ ?_, ?_⟩
  · exact IsBlock.empty hleft hright
  · exact Nat.zero_le levels

theorem yields_afterExpression {more : Reader (List Tree × Tree)} {expression : Tree}
    {taken : List Token} (hmore : ∀ input, Yields more input (AreElements levels))
    (hexpression : IsExpression expression taken ∧ expression.nesting + 1 ≤ levels)
    (input : List Token) :
    Yields (Reader.afterExpression expression more) input fun elements tokens ↦
      AreElements levels elements (taken ++ tokens) := by
  have hended : ∀ (semicolon : Token) (rest : List Token), semicolon.kind = .semicolon →
      Yields (Reader.prepend (.statement expression) more) rest fun elements tokens ↦
        AreElements levels elements (taken ++ semicolon :: tokens) := by
    intro semicolon rest hsemicolon
    refine (hmore rest).prepend fun elements tokens helements ↦ ?_
    have hstatement : Within levels IsEnded (.statement expression) (taken ++ [semicolon]) :=
      ⟨.expression hexpression.1 hsemicolon, hexpression.2⟩
    simpa using helements.cons_ended hstatement
  refine Yields.get ?_
  split
  · next hnext =>
    obtain ⟨right, rest, rfl, hright⟩ := Reader.exists_of_nextIs hnext
    refine Yields.skip (by simp [hright]) (Yields.pure ⟨fun left hleft ↦ ?_, ?_⟩)
    · simpa using IsBlock.result hleft .nil hexpression.1 hright
    · exact Tree.nesting_block_nil hexpression.2
  · next hnext =>
    split
    · next hbraced =>
      refine Yields.accept (by decide) (fun semicolon rest hsemicolon ↦ ?_) fun _ ↦ ?_
      · exact hended semicolon rest hsemicolon
      · refine (hmore input).front.prepend fun elements tokens helements ↦ ?_
        refine helements.1.cons ⟨.braced hbraced hexpression.1, hexpression.2⟩ ?_
        -- the elements start where the input does, and that is not at the closing brace
        obtain ⟨token, others, rfl⟩ := List.exists_cons_of_ne_nil helements.1.ne_nil
        obtain ⟨rest, rfl⟩ := helements.2
        simpa using hnext
    · refine Yields.expect (by decide) fun semicolon rest hsemicolon ↦ ?_
      exact hended semicolon rest hsemicolon

variable (hlevel : SoundLevel level levels) (rounds : Nat)

include hlevel

theorem yields_elements :
    ∀ input, Yields (Reader.elements level rounds) input (AreElements levels) := by
  induction rounds with
  | zero => exact yields_closingBrace
  | succ rounds ih =>
    intro input
    refine Yields.get (Yields.get ?_)
    split
    · exact yields_closingBrace input
    · refine Yields.get ?_
      split
      · next keyword hkeyword =>
        refine Yields.bind (yields_declaration hlevel hkeyword) fun first taken rest hfirst ↦ ?_
        exact (ih rest).prepend fun elements more helements ↦ helements.cons_ended hfirst
      · refine Yields.get ?_
        split
        · refine Yields.bind (yields_assignment hlevel input) fun first taken rest hfirst ↦ ?_
          exact (ih rest).prepend fun elements more helements ↦ helements.cons_ended hfirst
        · refine Yields.bind (hlevel.expression input) fun expression taken rest hexpression ↦ ?_
          exact yields_afterExpression ih hexpression rest

theorem yields_block (input : List Token) :
    Yields (Reader.block rounds level) input (Within levels IsBlock) := by
  refine Yields.expect (by decide) fun left rest hleft ↦ ?_
  refine Yields.bind (yields_elements hlevel rounds rest) fun elements taken _ helements ↦ ?_
  exact Yields.pure ⟨by simpa using helements.1 left hleft, helements.2⟩

/-! ### Conditionals -/

theorem yields_elseBranches (more : Nat) :
    ∀ input, Yields (Reader.elseBranches rounds level more) input fun branches taken ↦
      AreBranches branches taken ∧ Tree.nestings branches ≤ levels := by
  induction more with
  | zero => exact fun input ↦ Yields.pure ⟨.nil, Nat.zero_le levels⟩
  | succ more ih =>
    intro input
    refine Yields.get (Yields.get ?_)
    split
    · next hwords =>
      obtain ⟨helse, hif⟩ := Bool.and_eq_true_iff.mp hwords
      obtain ⟨elseWord, rest, rfl, helse⟩ := Reader.exists_of_nextIsKeyword helse
      obtain ⟨ifWord, rest, rfl, hif⟩ := Reader.exists_of_secondIsKeyword hif
      refine Yields.skip (Token.kind_ne_endOfStream_of_isKeyword helse) ?_
      refine Yields.skip (Token.kind_ne_endOfStream_of_isKeyword hif) ?_
      refine Yields.bind (hlevel.expression rest) fun condition _ rest hcondition ↦ ?_
      refine Yields.bind (yields_block hlevel rounds rest) fun body _ rest hbody ↦ ?_
      refine Yields.bind (ih rest) fun branches _ _ hbranches ↦ Yields.pure ⟨?_, ?_⟩
      · simpa using AreBranches.cons helse hif hcondition.1 hbody.1 hbranches.1
      · exact Nat.max_le.mpr ⟨Nat.max_le.mpr ⟨hcondition.2, hbody.2⟩, hbranches.2⟩
    · exact Yields.pure ⟨.nil, Nat.zero_le levels⟩

theorem yields_elseBlock (input : List Token) :
    Yields (Reader.elseBlock rounds level) input (Within levels IsOtherwise) := by
  refine Yields.get ?_
  split
  · next hword =>
    obtain ⟨word, rest, rfl, hword⟩ := Reader.exists_of_nextIsKeyword hword
    refine Yields.skip (Token.kind_ne_endOfStream_of_isKeyword hword) ?_
    exact (yields_block hlevel rounds rest).mono fun body taken hbody ↦
      ⟨.block hword hbody.1, hbody.2⟩
  · exact Yields.pure ⟨.absent, Nat.zero_le levels⟩

theorem yields_conditional (input : List Token) :
    Yields (Reader.conditional rounds level) input (Within levels IsConditional) := by
  refine Yields.expectKeyword fun word rest hword ↦ ?_
  refine Yields.bind (hlevel.expression rest) fun condition _ rest hcondition ↦ ?_
  refine Yields.bind (yields_block hlevel rounds rest) fun body _ rest hbody ↦ ?_
  refine Yields.bind (yields_elseBranches hlevel rounds rounds rest) fun branches _ rest hbranches ↦ ?_
  refine Yields.bind (yields_elseBlock hlevel rounds rest) fun otherwise _ _ hotherwise ↦
    Yields.pure ⟨?_, ?_⟩
  · simpa using IsConditional.branching hword hcondition.1 hbody.1 hbranches.1 hotherwise.1
  · exact Nat.max_le.mpr ⟨hcondition.2, Nat.max_le.mpr
      ⟨hbody.2, Nat.max_le.mpr ⟨hbranches.2, hotherwise.2⟩⟩⟩

/-! ### The knot -/

theorem yields_expressionWith (input : List Token) :
    Yields (Reader.expressionWith rounds level) input (Within levels IsExpression) := by
  refine Yields.get ?_
  split
  · exact (yields_block hlevel rounds input).mono fun tree taken htree ↦ ⟨.block htree.1, htree.2⟩
  · refine Yields.get ?_
    split
    · exact (yields_conditional hlevel rounds input).mono fun tree taken htree ↦
        ⟨.conditional htree.1, htree.2⟩
    · exact yields_comparison hlevel rounds input

end

/-- Reading is sound at every number of levels. -/
theorem sound_level (rounds levels : Nat) : SoundLevel (Reader.level rounds levels) levels := by
  induction levels with
  | zero => exact ⟨yields_type rounds 0, fun input ↦ Yields.throw⟩
  | succ levels ih =>
    refine ⟨yields_type rounds (levels + 1), fun input ↦ ?_⟩
    exact (yields_expressionWith ih rounds input).mono fun tree taken htree ↦
      ⟨htree.1, Nat.succ_le_succ htree.2⟩

/-! ### Programs -/

theorem IsFactor.ne_nil {tree : Tree} {tokens : List Token} (h : IsFactor tree tokens) :
    tokens ≠ [] := by
  cases h <;> simp

theorem IsTerm.ne_nil {tree : Tree} {tokens : List Token} (h : IsTerm tree tokens) :
    tokens ≠ [] := by
  cases h with
  | factor hfactor => exact hfactor.ne_nil
  | negation => simp
  | step => simp

theorem IsAdditive.ne_nil {tree : Tree} {tokens : List Token} (h : IsAdditive tree tokens) :
    tokens ≠ [] := by
  cases h with
  | term hterm => exact hterm.ne_nil
  | step => simp

theorem IsBlock.ne_nil {tree : Tree} {tokens : List Token} (h : IsBlock tree tokens) :
    tokens ≠ [] := by
  cases h <;> simp

theorem IsExpression.ne_nil {tree : Tree} {tokens : List Token} (h : IsExpression tree tokens) :
    tokens ≠ [] := by
  cases h with
  | block hblock => exact hblock.ne_nil
  | conditional hconditional =>
    cases hconditional
    simp
  | additive hadditive => exact hadditive.ne_nil
  | comparison => simp

theorem IsStatement.ne_nil {tree : Tree} {tokens : List Token} (h : IsStatement tree tokens) :
    tokens ≠ [] := by
  cases h with
  | ended hended => cases hended <;> simp
  | braced _ hexpression => exact hexpression.ne_nil

/-- Statements are read up to the end of the input, provided that there are enough rounds. -/
theorem statements_sound {level : ReaderLevel} {levels : Nat} (hlevel : SoundLevel level levels)
    (rounds : Nat) : ∀ (input : List Token) (trees : List Tree) (rest : List Token),
      input.length ≤ rounds → Reader.statements level rounds input = .ok trees rest →
        ∃ taken, input = taken ++ rest ∧ (∀ token ∈ taken, token.kind ≠ .endOfStream) ∧
          AreStatements trees taken ∧ Tree.nestings trees ≤ levels ∧
          Reader.atEnd rest = true := by
  induction rounds with
  | zero =>
    intro input trees rest hrounds hread
    obtain rfl := List.length_eq_zero_iff.mp (Nat.le_zero.mp hrounds)
    cases hread
    exact ⟨[], rfl, by simp, .nil, Nat.zero_le levels, rfl⟩
  | succ rounds ih =>
    intro input trees rest hrounds hread
    rw [Reader.statements, Run.get_bind] at hread
    split at hread
    · next hend =>
      cases hread
      exact ⟨[], rfl, by simp, .nil, Nat.zero_le levels, hend⟩
    · obtain ⟨first, middle, hfirst, hnext⟩ := Run.exists_of_bind_eq_ok hread
      obtain ⟨others, _, hothers, hpure⟩ := Run.exists_of_bind_eq_ok hnext
      cases hpure
      obtain ⟨taken, rfl, htakenEnd, hstatement⟩ := yields_statement hlevel input first middle hfirst
      have hshorter : middle.length ≤ rounds := by
        have hpositive := List.length_pos_iff.mpr hstatement.1.ne_nil
        rw [List.length_append] at hrounds
        omega
      obtain ⟨more, rfl, hmoreEnd, hmore, hlevels, hatEnd⟩ := ih middle others rest hshorter hothers
      refine ⟨taken ++ more, by rw [List.append_assoc], ?_, .cons hstatement.1 hmore,
        Nat.max_le.mpr ⟨hstatement.2, hlevels⟩, hatEnd⟩
      intro token htoken
      rcases List.mem_append.mp htoken with hmem | hmem
      · exact htakenEnd token hmem
      · exact hmoreEnd token hmem

/-- A program that was read is derived by the tokens before the first that ends the stream, and has
no more levels than the limit allows. -/
theorem predict_sound {tokens : List Token} {tree : Tree} (hread : predict tokens = .ok tree) :
    IsProgram tree (tokens.takeWhile (·.kind != .endOfStream)) ∧ tree.nesting ≤ nestingLimit := by
  unfold predict at hread
  split at hread
  · next rest hprogram =>
    cases hread
    obtain ⟨trees, _, hstatements, hpure⟩ := Run.exists_of_bind_eq_ok hprogram
    cases hpure
    obtain ⟨taken, rfl, htaken, hderived, hlevels, hatEnd⟩ :=
      statements_sound (sound_level _ nestingLimit) _ _ _ _ (Nat.le_refl _) hstatements
    refine ⟨.program ?_, hlevels⟩
    have htake : (taken ++ rest).takeWhile (·.kind != .endOfStream) = taken := by
      rw [List.takeWhile_append_of_pos (by simpa using htaken)]
      cases rest with
      | nil => simp
      | cons token others =>
        have htoken : token.kind = .endOfStream := by simpa [Reader.atEnd] using hatEnd
        simp [htoken]
    rw [htake]
    exact hderived
  · cases hread

end LetLang
