import LetLang.Proofs.Grammar.Soundness

/-!
# Where reading stops, the tokens before can be continued

A reader that stops because it expected something else has taken tokens with which a phrase can
begin: there are tokens that complete them. `Pursues` says this of one reader on one input, and also
that a phrase can be completed from here with nothing taken yet. The second half is what composes:
when the first of two readers stops, what it took is completed to its own phrase, and this to the
whole by what the second reader is after.

The leaves need a shortest phrase each: a name for every sort of expression, `int` for the types. An
interrupted block is completed by a result and the closing brace.

A reader can also stop at a token of the kind of data types that names none. Then the input has such
a token (`Token.Misnamed`).
-/

set_option autoImplicit false

namespace LetLang

/-! ### Phrases that can be completed -/

/-- The tokens are the beginning of a phrase with the property. -/
def Viable {α : Type} (property : α → List Token → Prop) (tokens : List Token) : Prop :=
  ∃ more value, property value (tokens ++ more)

/-- The token is of the kind of data types, but names none of them. -/
def Token.Misnamed (token : Token) : Prop :=
  token.kind = .dataType ∧ token.lexeme.bind DataType.ofName? = none

theorem viable_of {α : Type} {property : α → List Token → Prop} {value : α} {tokens : List Token}
    (hvalue : property value tokens) : Viable property tokens :=
  ⟨[], value, by simpa using hvalue⟩

/-- What begins a part begins the whole, if the part can be completed to it. -/
theorem Viable.extend {α β : Type} {part : α → List Token → Prop} {whole : β → List Token → Prop}
    {tokens : List Token} (hpart : Viable part tokens)
    (hwhole : ∀ value tokens, part value tokens → Viable whole tokens) : Viable whole tokens := by
  obtain ⟨more, value, hvalue⟩ := hpart
  obtain ⟨others, result, hresult⟩ := hwhole value (tokens ++ more) hvalue
  exact ⟨more ++ others, result, by simpa using hresult⟩

theorem Viable.imp {α β : Type} {first : α → List Token → Prop} {second : β → List Token → Prop}
    {tokens : List Token} {image : α → β} (hfirst : Viable first tokens)
    (himp : ∀ value tokens, first value tokens → second (image value) tokens) :
    Viable second tokens :=
  hfirst.extend fun value tokens hvalue ↦ viable_of (himp value tokens hvalue)

/-- The reader is after phrases with the property, of which there are some. If it stops on the input,
then because of the limit of nesting, or before tokens that cannot follow the beginning of a phrase
that it took, or at a token of the input that wrongly claims to name a data type. -/
structure Pursues {α : Type} (reader : Reader α) (input : List Token)
    (property : α → List Token → Prop) : Prop where
  viable : Viable property []
  misfit : ∀ cause rest, reader input = .error (.misfit cause) rest →
    (∀ limit, cause ≠ .nesting limit) → ∃ taken, input = taken ++ rest ∧ Viable property taken
  misnamed : ∀ lexeme rest, reader input = .error (.unknownDataType lexeme) rest →
    ∃ token ∈ input, token.Misnamed

namespace Pursues

variable {α β : Type} {input : List Token}

/-- What the reader took, as the beginning of another phrase. -/
theorem handOn {reader : Reader α} {image : α → β} {first : α → List Token → Prop}
    {second : β → List Token → Prop} (hreader : Pursues reader input first)
    (himp : ∀ taken, taken <+: input → Viable first taken → Viable second taken) :
    Pursues (reader >>= fun value ↦ Pure.pure (image value)) input second := by
  have herror : ∀ obstacle rest,
      (reader >>= fun value ↦ Pure.pure (image value)) input = .error obstacle rest →
        reader input = .error obstacle rest := by
    intro obstacle rest hstop
    rcases Run.of_bind_eq_error hstop with hread | ⟨value, middle, -, hlast⟩
    · exact hread
    · cases hlast
  refine ⟨himp [] List.nil_prefix hreader.viable, fun cause rest hstop hlimit ↦ ?_,
    fun lexeme rest hstop ↦ hreader.misnamed lexeme rest (herror _ rest hstop)⟩
  obtain ⟨taken, rfl, hviable⟩ := hreader.misfit cause rest (herror _ rest hstop) hlimit
  exact ⟨taken, rfl, himp taken (List.prefix_append taken rest) hviable⟩

theorem map {reader : Reader α} {image : α → β} {first : α → List Token → Prop}
    {second : β → List Token → Prop} (hreader : Pursues reader input first)
    (himp : ∀ value taken, first value taken → second (image value) taken) :
    Pursues (reader >>= fun value ↦ Pure.pure (image value)) input second :=
  hreader.handOn fun _ _ hviable ↦ hviable.imp himp

theorem mono {reader : Reader α} {first second : α → List Token → Prop}
    (hreader : Pursues reader input first)
    (himp : ∀ value taken, first value taken → second value taken) :
    Pursues reader input second := by
  refine ⟨hreader.viable.imp himp, fun cause rest hstop hlimit ↦ ?_, hreader.misnamed⟩
  obtain ⟨taken, hinput, hviable⟩ := hreader.misfit cause rest hstop hlimit
  exact ⟨taken, hinput, hviable.imp himp⟩

theorem pure {value : α} {property : α → List Token → Prop} (hvalue : property value []) :
    Pursues (Pure.pure value) input property := by
  refine ⟨viable_of hvalue, fun cause rest hstop ↦ ?_, fun lexeme rest hstop ↦ ?_⟩
  · cases hstop
  · cases hstop

theorem fail {what : Expected} {property : α → List Token → Prop} (hviable : Viable property []) :
    Pursues (Reader.fail what) input property := by
  refine ⟨hviable, fun cause rest hstop _ ↦ ?_, fun lexeme rest hstop ↦ ?_⟩
  · cases hstop
    exact ⟨[], rfl, hviable⟩
  · cases hstop

theorem tooDeep {property : α → List Token → Prop} (hviable : Viable property []) :
    Pursues Reader.tooDeep input property := by
  refine ⟨hviable, fun cause rest hstop hlimit ↦ ?_, fun lexeme rest hstop ↦ ?_⟩
  · cases hstop
    exact absurd rfl (hlimit nestingLimit)
  · cases hstop

theorem bind {reader : Reader α} {next : α → Reader β} {first : α → List Token → Prop}
    {second : β → List Token → Prop} (hreader : Pursues reader input first)
    (hyields : Yields reader input first)
    (hnext : ∀ value taken rest, first value taken →
      Pursues (next value) rest fun result more ↦ second result (taken ++ more)) :
    Pursues (reader >>= next) input second := by
  have hwhole : ∀ value taken, first value taken → Viable second taken := by
    intro value taken hvalue
    obtain ⟨more, result, hresult⟩ := (hnext value taken [] hvalue).viable
    exact ⟨more, result, hresult⟩
  refine ⟨hreader.viable.extend hwhole, fun cause rest hstop hlimit ↦ ?_,
    fun lexeme rest hstop ↦ ?_⟩
  · rcases Run.of_bind_eq_error hstop with hread | ⟨value, middle, hread, hlast⟩
    · obtain ⟨taken, hinput, hviable⟩ := hreader.misfit cause rest hread hlimit
      exact ⟨taken, hinput, hviable.extend hwhole⟩
    · obtain ⟨taken, rfl, -, hvalue⟩ := hyields value middle hread
      obtain ⟨others, rfl, more, result, hresult⟩ :=
        (hnext value taken middle hvalue).misfit cause rest hlast hlimit
      exact ⟨taken ++ others, by simp, more, result, by simpa using hresult⟩
  · rcases Run.of_bind_eq_error hstop with hread | ⟨value, middle, hread, hlast⟩
    · exact hreader.misnamed lexeme rest hread
    · obtain ⟨taken, rfl, -, hvalue⟩ := hyields value middle hread
      obtain ⟨token, htoken, hmisnamed⟩ :=
        (hnext value taken middle hvalue).misnamed lexeme rest hlast
      exact ⟨token, List.mem_append_right taken htoken, hmisnamed⟩

theorem congr {reader other : Reader α} {property : α → List Token → Prop}
    (hother : Pursues other input property) (hrun : reader input = other input) :
    Pursues reader input property :=
  ⟨hother.viable, hrun ▸ hother.misfit, hrun ▸ hother.misnamed⟩

theorem get {next : List Token → Reader β} {property : β → List Token → Prop}
    (hnext : Pursues (next input) input property) :
    Pursues (MonadState.get >>= next) input property := hnext.congr rfl

/-- One token is taken, and the reader for what follows it goes on. -/
theorem push {token : Token} {rest : List Token} {reader next : Reader α}
    {property : α → List Token → Prop} (hstep : reader (token :: rest) = next rest)
    (hnext : Pursues next rest fun result more ↦ property result (token :: more)) :
    Pursues reader (token :: rest) property := by
  refine ⟨?_, fun cause left hstop hlimit ↦ ?_, fun lexeme left hstop ↦ ?_⟩
  · obtain ⟨more, result, hresult⟩ := hnext.viable
    exact ⟨token :: more, result, hresult⟩
  · obtain ⟨taken, rfl, hviable⟩ := hnext.misfit cause left (hstep.symm.trans hstop) hlimit
    exact ⟨token :: taken, rfl, hviable⟩
  · obtain ⟨other, hother, hmisnamed⟩ := hnext.misnamed lexeme left (hstep.symm.trans hstop)
    exact ⟨other, List.mem_cons_of_mem token hother, hmisnamed⟩

theorem skip {token : Token} {rest : List Token} {next : Unit → Reader β}
    {property : β → List Token → Prop}
    (hnext : Pursues (next ()) rest fun result more ↦ property result (token :: more)) :
    Pursues (Reader.skip >>= next) (token :: rest) property :=
  push (Run.bind_of_ok Reader.skip_cons) hnext

theorem expect {kind : TokenKind} {next : Lexeme → Reader β} {property : β → List Token → Prop}
    (hnext : ∀ token rest, token.kind = kind →
      Pursues (next token.lexeme) rest fun result more ↦ property result (token :: more)) :
    Pursues (Reader.expect kind >>= next) input property := by
  by_cases hinput : Reader.nextIs kind input = true
  · obtain ⟨token, rest, rfl, htoken⟩ := Reader.exists_of_nextIs hinput
    exact push (Run.bind_of_ok (Reader.expect_cons htoken)) (hnext token rest htoken)
  · have hstop : (Reader.expect kind >>= next) input =
        .error (.misfit (.expected (.token kind))) input :=
      Run.bind_of_error (Reader.expect_of_not (by simpa using hinput))
    have hviable : Viable property [] := by
      obtain ⟨more, result, hresult⟩ := (hnext ⟨kind, none⟩ input rfl).viable
      exact ⟨⟨kind, none⟩ :: more, result, hresult⟩
    refine ⟨hviable, fun cause rest hrun _ ↦ ?_, fun lexeme rest hrun ↦ ?_⟩
    · cases hstop.symm.trans hrun
      exact ⟨[], rfl, hviable⟩
    · cases hstop.symm.trans hrun

theorem accept {kind : TokenKind} {next : Bool → Reader β} {property : β → List Token → Prop}
    (hyes : ∀ token rest, token.kind = kind →
      Pursues (next true) rest fun result more ↦ property result (token :: more))
    (hno : Reader.nextIs kind input = false → Pursues (next false) input property) :
    Pursues (Reader.accept kind >>= next) input property := by
  by_cases hinput : Reader.nextIs kind input = true
  · obtain ⟨token, rest, rfl, htoken⟩ := Reader.exists_of_nextIs hinput
    exact push (Run.bind_of_ok (Reader.accept_cons htoken)) (hyes token rest htoken)
  · have hnot : Reader.nextIs kind input = false := by simpa using hinput
    exact (hno hnot).congr (Run.bind_of_ok (Reader.accept_of_not hnot))

end Pursues

/-- The levels of what was read play no part here. -/
theorem Yields.derives {levels : Nat} {reader : Reader Tree} {input : List Token}
    {derives : Tree → List Token → Prop} (hreader : Yields reader input (Within levels derives)) :
    Yields reader input derives :=
  hreader.mono fun _ _ htree ↦ htree.1

/-! ### Lists -/

section

variable {α : Type} {item : Reader α} {property : α → List Token → Prop}
  (hitem : ∀ input, Pursues item input property) (hyields : ∀ input, Yields item input property)

include hitem hyields

theorem pursues_afterCommas (rounds : Nat) :
    ∀ (input : List Token) (first : α) (taken : List Token), property first taken →
      Pursues (Reader.afterCommas item rounds) input fun rest more ↦
        Separated property (first :: rest) (taken ++ more) := by
  induction rounds with
  | zero => exact fun input first taken hfirst ↦ .pure (by simpa using Separated.one hfirst)
  | succ rounds ih =>
    intro input first taken hfirst
    refine .accept (fun comma rest hcomma ↦ ?_) fun _ ↦ ?_
    · refine .bind (hitem rest) (hyields rest) fun second secondTaken rest hsecond ↦ ?_
      refine (ih rest second secondTaken hsecond).map fun others more hothers ↦ ?_
      simpa using Separated.more hfirst hcomma hothers
    · exact .pure (by simpa using Separated.one hfirst)

theorem pursues_listed (rounds : Nat) (input : List Token) :
    Pursues (Reader.listed rounds item) input (Listed property) := by
  refine .expect fun left rest hleft ↦ .get ?_
  split
  · exact .expect fun right _ hright ↦ .pure (.none hleft hright)
  · refine .bind (hitem rest) (hyields rest) fun first taken rest hfirst ↦ ?_
    refine .bind (pursues_afterCommas hitem hyields rounds rest first taken hfirst)
      (yields_afterCommas hyields rounds rest first taken hfirst) fun others more _ hothers ↦ ?_
    refine .expect fun right _ hright ↦ .pure ?_
    simpa using Listed.some hleft hothers hright

end

/-! ### Types -/

theorem viable_isType : Viable IsType [] :=
  ⟨[⟨.dataType, some "int"⟩], .basicType .int, .basic rfl rfl⟩

theorem Separated.areParameters {parameters : List Tree} {tokens : List Token}
    (h : Separated IsParameter parameters tokens) : AreParameters parameters tokens := by
  induction h with
  | one hparameter => exact .one hparameter
  | more hparameter hcomma _ ih => exact .more hparameter hcomma ih

section

variable {type : Reader Tree} (htype : ∀ input, Pursues type input IsType)
  (hyields : ∀ input, Yields type input IsType)

include htype

theorem pursues_parameter (input : List Token) :
    Pursues (Reader.parameter type) input IsParameter := by
  refine .expect fun name _ hname ↦ .expect fun colon rest hcolon ↦ ?_
  exact (htype rest).map fun type taken htype ↦ .named hname hcolon htype

include hyields

theorem pursues_functionType (rounds : Nat) (input : List Token) :
    Pursues (Reader.functionType rounds type) input IsType := by
  have hparameter : ∀ input, Yields (Reader.parameter type) input IsParameter := by
    intro input
    refine .expect (by decide) fun name _ hname ↦ .expect (by decide) fun colon rest hcolon ↦ ?_
    exact .bind (hyields rest) fun type taken _ htype ↦
      .pure (by simpa using .named hname hcolon htype)
  refine .bind (pursues_listed (pursues_parameter htype) hparameter rounds input)
    (yields_listed hparameter rounds input) fun parameters taken _ hparameters ↦ ?_
  refine .expect fun arrow rest harrow ↦ ?_
  refine (htype rest).map fun result more hresult ↦ ?_
  cases hparameters with
  | none hleft hright => exact .constant hleft hright harrow hresult
  | some hleft hvalues hright =>
    simpa using IsType.function hleft hvalues.areParameters hright harrow hresult

end

theorem pursues_typeWith {function : Reader Tree} {input : List Token}
    (hfunction : Pursues function input IsType) :
    Pursues (Reader.typeWith function) input IsType := by
  refine .get ?_
  cases input with
  | nil => exact .fail viable_isType
  | cons token rest =>
    simp only [List.head?_cons]
    split
    · next hkind =>
      have hdata : token.kind = .dataType := by simpa using hkind
      split
      · next name hname =>
        obtain ⟨text, hlexeme, hname⟩ := Option.bind_eq_some_iff.mp hname
        refine .skip (.pure (.basic hdata ?_))
        rw [hlexeme, DataType.name_of_ofName? hname]
      · next hname =>
        refine ⟨viable_isType, fun cause rest hstop ↦ ?_, fun lexeme rest hstop ↦ ?_⟩
        · cases hstop
        · exact ⟨token, List.mem_cons_self, hdata, hname⟩
    · split
      · exact hfunction
      · exact .fail viable_isType

theorem pursues_type (rounds levels : Nat) :
    ∀ input, Pursues (Reader.type rounds levels) input IsType := by
  induction levels with
  | zero => exact fun input ↦ pursues_typeWith (.tooDeep viable_isType)
  | succ levels ih =>
    intro input
    have hyields := fun input ↦ (yields_type rounds levels input).derives
    exact pursues_typeWith (pursues_functionType ih hyields rounds input)

/-! ### Expressions -/

/-- Where a level stops, what it took can be continued. -/
structure ViableLevel (level : ReaderLevel) : Prop where
  type : ∀ input, Pursues level.type input IsType
  expression : ∀ input, Pursues level.expression input IsExpression

theorem viable_isFactor : Viable IsFactor [] := ⟨[⟨.identifier, some "x"⟩], _, .identifier rfl⟩

theorem viable_isExpression : Viable IsExpression [] :=
  viable_isFactor.extend fun _ _ hfactor ↦ viable_of (.additive (.term (.factor hfactor)))

theorem Separated.areArguments {arguments : List Tree} {tokens : List Token}
    (h : Separated IsExpression arguments tokens) : AreArguments arguments tokens := by
  induction h with
  | one hargument => exact .one hargument
  | more hargument hcomma _ ih => exact .more hargument hcomma ih

theorem pursues_chain {operation? : TokenKind → Option ArithOp} {operand : Reader Tree}
    {whole part : Tree → List Token → Prop} (hoperand : ∀ input, Pursues operand input part)
    (hyields : ∀ input, Yields operand input part)
    (hstep : ∀ {left right : Tree} {operator : Token} {op : ArithOp} {taken more : List Token},
      whole left taken → operation? operator.kind = some op → part right more →
        whole (.arith op left right) (taken ++ operator :: more)) (rounds : Nat) :
    ∀ (input : List Token) (left : Tree) (taken : List Token), whole left taken →
      Pursues (Reader.chain operation? operand rounds left) input fun tree more ↦
        whole tree (taken ++ more) := by
  induction rounds with
  | zero => exact fun input left taken hleft ↦ .pure (by simpa using hleft)
  | succ rounds ih =>
    intro input left taken hleft
    refine .get ?_
    split
    · next op hop =>
      obtain ⟨operator, hoperator, hop⟩ := Option.bind_eq_some_iff.mp hop
      obtain ⟨rest, rfl⟩ := List.head?_eq_some_iff.mp hoperator
      refine .skip (.bind (hoperand rest) (hyields rest) fun right more rest hright ↦ ?_)
      refine (ih rest _ _ (hstep hleft hop hright)).mono fun tree others htree ↦ ?_
      simpa using htree
    · exact .pure (by simpa using hleft)

section

variable {levels : Nat} {level : ReaderLevel} (hlevel : ViableLevel level)
  (hsound : SoundLevel level levels) (rounds : Nat)

theorem SoundLevel.yields_expression {levels : Nat} {level : ReaderLevel}
    (hsound : SoundLevel level levels) (input : List Token) :
    Yields level.expression input IsExpression :=
  (hsound.expression input).mono fun _ _ htree ↦ htree.1

include hlevel hsound

theorem pursues_factor (input : List Token) :
    Pursues (Reader.factor rounds level) input IsFactor := by
  refine .get ?_
  cases input with
  | nil => exact .fail viable_isFactor
  | cons token rest =>
    simp only [List.head?_cons]
    split
    · next hkind => exact .skip (.pure (.literal (by simpa using hkind)))
    split
    · next hnumber hkind =>
      unfold Reader.typedLiteral
      split
      · next number hread =>
        have htyped : token.kind = .integerLiteral ∨ token.kind = .floatLiteral := by
          cases htoken : token.kind <;> simp_all [TokenKind.isLiteral]
        exact .skip (.pure (.number htyped hread))
      · exact .fail viable_isFactor
    split
    · next hkind =>
      have hname : token.kind = .identifier := by simpa using hkind
      refine .skip (.get ?_)
      split
      · refine (pursues_listed hlevel.expression hsound.yields_expression rounds rest).map
          fun arguments taken harguments ↦ ?_
        cases harguments with
        | none hleft hright => exact .emptyCall hname hleft hright
        | some hleft hvalues hright => exact .call hname hleft hvalues.areArguments hright
      · exact .pure (.identifier hname)
    split
    · next hkind =>
      have hleft : token.kind = .leftParen := by simpa using hkind
      refine .skip (.bind (hlevel.expression rest) (hsound.yields_expression rest)
        fun inner taken _ hinner ↦ ?_)
      exact .expect fun right _ hright ↦ .pure (.parenthesized hleft hinner hright)
    · exact .fail viable_isFactor

theorem pursues_term (input : List Token) : Pursues (Reader.term rounds level) input IsTerm := by
  have hfactor := pursues_factor hlevel hsound rounds
  have hyields := fun input ↦ (yields_factor hsound rounds input).derives
  have hchain : ∀ input left taken, IsTerm left taken →
      Pursues (Reader.chain multiplicativeOp? (Reader.factor rounds level) rounds left) input
        fun tree more ↦ IsTerm tree (taken ++ more) :=
    pursues_chain hfactor hyields IsTerm.step rounds
  refine .accept (fun sign rest hsign ↦ ?_) fun _ ↦ ?_
  · refine .bind (hfactor rest) (hyields rest) fun first taken rest hfirst ↦ ?_
    exact hchain rest _ (sign :: taken) (.negation hsign hfirst)
  · refine .bind (hfactor input) (hyields input) fun first taken rest hfirst ↦ ?_
    exact hchain rest first taken (.factor hfirst)

theorem pursues_additive (input : List Token) :
    Pursues (Reader.additive rounds level) input IsAdditive := by
  have hterm := pursues_term hlevel hsound rounds
  have hyields := fun input ↦ (yields_term hsound rounds input).derives
  refine .bind (hterm input) (hyields input) fun first taken rest hfirst ↦ ?_
  exact pursues_chain hterm hyields IsAdditive.step rounds rest first taken (.term hfirst)

theorem pursues_comparison (input : List Token) :
    Pursues (Reader.comparison rounds level) input IsExpression := by
  refine .bind (pursues_additive hlevel hsound rounds input)
    (yields_additive hsound rounds input).derives fun left taken rest hleft ↦ .get ?_
  split
  · next op hop =>
    obtain ⟨operator, hoperator, hop⟩ := Option.bind_eq_some_iff.mp hop
    obtain ⟨rest, rfl⟩ := List.head?_eq_some_iff.mp hoperator
    refine .skip ((pursues_additive hlevel hsound rounds rest).map fun right more hright ↦ ?_)
    exact .comparison hleft hop hright
  · exact .pure (by simpa using IsExpression.additive hleft)

/-! ### Statements -/

theorem pursues_declaration {input : List Token} {keyword : DeclKeyword}
    (hkeyword : Reader.declKeyword? input = some keyword) :
    Pursues (Reader.declaration level keyword) input IsEnded := by
  obtain ⟨word, rest, rfl, hword⟩ := Reader.exists_of_declKeyword? hkeyword
  refine .skip (.expect fun name _ hname ↦ .expect fun colon rest hcolon ↦ ?_)
  refine .bind (hlevel.type rest) (hsound.type rest).derives fun type typeTaken _ htype ↦ ?_
  refine .expect fun equals rest hequals ↦ ?_
  refine .bind (hlevel.expression rest) (hsound.yields_expression rest)
    fun value valueTaken _ hvalue ↦ ?_
  refine .expect fun semicolon _ hsemicolon ↦ .pure ?_
  simpa using IsEnded.declaration hword hname hcolon htype hequals hvalue hsemicolon

theorem pursues_assignment (input : List Token) :
    Pursues (Reader.assignment level) input IsEnded := by
  refine .expect fun name _ hname ↦ .expect fun equals rest hequals ↦ ?_
  refine .bind (hlevel.expression rest) (hsound.yields_expression rest)
    fun value taken _ hvalue ↦ ?_
  exact .expect fun semicolon _ hsemicolon ↦ .pure (.assignment hname hequals hvalue hsemicolon)

theorem pursues_expressionStatement (input : List Token) :
    Pursues (Reader.expressionStatement level) input IsStatement := by
  refine .bind (hlevel.expression input) (hsound.yields_expression input)
    fun expression taken rest hexpression ↦ ?_
  split
  · next hbraced =>
    refine .accept (fun semicolon _ hsemicolon ↦ ?_) fun _ ↦ ?_
    · exact .pure (.ended (.expression hexpression hsemicolon))
    · exact .pure (by simpa using IsStatement.braced hbraced hexpression)
  · exact .expect fun semicolon _ hsemicolon ↦ .pure (.ended (.expression hexpression hsemicolon))

theorem pursues_statement (input : List Token) :
    Pursues (Reader.statement level) input IsStatement := by
  refine .get ?_
  split
  · next keyword hkeyword =>
    exact (pursues_declaration hlevel hsound hkeyword).mono fun tree taken htree ↦ .ended htree
  · refine .get ?_
    split
    · exact (pursues_assignment hlevel hsound input).mono fun tree taken htree ↦ .ended htree
    · exact pursues_expressionStatement hlevel hsound input

end

/-! ### Blocks -/

/-- Tokens that make a block of the given elements when an opening brace stands before them. -/
def FillBlock (elements : List Tree × Tree) (tokens : List Token) : Prop :=
  ∀ left : Token, left.kind = .leftCurly → IsBlock (.block elements.1 elements.2) (left :: tokens)

section

variable {elements : List Tree × Tree} {first : Tree} {tokens rest : List Token}

theorem FillBlock.cons_ended (helements : FillBlock elements rest) (hfirst : IsEnded first tokens) :
    FillBlock (first :: elements.1, elements.2) (tokens ++ rest) :=
  fun left hleft ↦ (helements left hleft).cons_ended hfirst

theorem fillBlock_result {expression : Tree} (hexpression : IsExpression expression tokens)
    {right : Token} (hright : right.kind = .rightCurly) :
    FillBlock ([], expression) (tokens ++ [right]) :=
  fun _ hleft ↦ .result hleft .nil hexpression hright

end

theorem pursues_closingBrace (input : List Token) :
    Pursues (do let _ ← Reader.expect .rightCurly; return ([], .absent)) input FillBlock :=
  .expect fun _ _ hright ↦ .pure fun _ hleft ↦ .empty hleft hright

theorem pursues_afterExpression {more : Reader (List Tree × Tree)} {expression : Tree}
    {taken : List Token} (hmore : ∀ input, Pursues more input FillBlock)
    (hexpression : IsExpression expression taken) (input : List Token) :
    Pursues (Reader.afterExpression expression more) input fun elements tokens ↦
      FillBlock elements (taken ++ tokens) := by
  have hresult : Viable (fun elements tokens ↦ FillBlock elements (taken ++ tokens)) [] :=
    ⟨[⟨.rightCurly, none⟩], _, fillBlock_result hexpression rfl⟩
  have hended : ∀ (semicolon : Token) (rest : List Token), semicolon.kind = .semicolon →
      Pursues (Reader.prepend (.statement expression) more) rest fun elements tokens ↦
        FillBlock elements (taken ++ semicolon :: tokens) := by
    intro semicolon rest hsemicolon
    refine (hmore rest).map fun elements tokens helements ↦ ?_
    simpa using helements.cons_ended (.expression hexpression hsemicolon)
  refine .get ?_
  split
  · next hnext =>
    obtain ⟨right, rest, rfl, hright⟩ := Reader.exists_of_nextIs hnext
    exact .skip (.pure (fillBlock_result hexpression hright))
  · next hnext =>
    split
    · next hbraced =>
      refine .accept (fun semicolon rest hsemicolon ↦ hended semicolon rest hsemicolon) fun _ ↦ ?_
      refine (hmore input).handOn fun tokens hprefix hviable ↦ ?_
      -- with nothing behind the expression it is still open whether it is the result of the block
      cases tokens with
      | nil => exact hresult
      | cons token others =>
        obtain ⟨rest, rfl⟩ := hprefix
        obtain ⟨more, elements, helements⟩ := hviable
        refine ⟨more, (.statement expression :: elements.1, elements.2), fun left hleft ↦ ?_⟩
        exact (helements left hleft).cons (.braced hbraced hexpression) (by simpa using hnext)
    · exact .expect fun semicolon rest hsemicolon ↦ hended semicolon rest hsemicolon

section

variable {levels : Nat} {level : ReaderLevel} (hlevel : ViableLevel level)
  (hsound : SoundLevel level levels) (rounds : Nat)

include hlevel hsound

theorem pursues_elements :
    ∀ input, Pursues (Reader.elements level rounds) input FillBlock := by
  induction rounds with
  | zero => exact pursues_closingBrace
  | succ rounds ih =>
    intro input
    refine .get (.get ?_)
    split
    · exact pursues_closingBrace input
    · refine .get ?_
      split
      · next keyword hkeyword =>
        refine .bind (pursues_declaration hlevel hsound hkeyword)
          (yields_declaration hsound hkeyword).derives fun first taken rest hfirst ↦ ?_
        exact (ih rest).map fun elements more helements ↦ helements.cons_ended hfirst
      · refine .get ?_
        split
        · refine .bind (pursues_assignment hlevel hsound input)
            (yields_assignment hsound input).derives fun first taken rest hfirst ↦ ?_
          exact (ih rest).map fun elements more helements ↦ helements.cons_ended hfirst
        · refine .bind (hlevel.expression input) (hsound.yields_expression input)
            fun expression taken rest hexpression ↦ ?_
          exact pursues_afterExpression ih hexpression rest

theorem pursues_block (input : List Token) :
    Pursues (Reader.block rounds level) input IsBlock := by
  refine .expect fun left rest hleft ↦ ?_
  exact (pursues_elements hlevel hsound rounds rest).map fun elements taken helements ↦
    helements left hleft

/-! ### Conditionals -/

theorem pursues_elseBranches (more : Nat) :
    ∀ input, Pursues (Reader.elseBranches rounds level more) input AreBranches := by
  induction more with
  | zero => exact fun input ↦ .pure .nil
  | succ more ih =>
    intro input
    refine .get (.get ?_)
    split
    · next hwords =>
      obtain ⟨helse, hif⟩ := Bool.and_eq_true_iff.mp hwords
      obtain ⟨elseWord, rest, rfl, helse⟩ := Reader.exists_of_nextIsKeyword helse
      obtain ⟨ifWord, rest, rfl, hif⟩ := Reader.exists_of_secondIsKeyword hif
      refine .skip (.skip ?_)
      refine .bind (hlevel.expression rest) (hsound.yields_expression rest)
        fun condition _ rest hcondition ↦ ?_
      refine .bind (pursues_block hlevel hsound rounds rest) (yields_block hsound rounds rest).derives
        fun body _ rest hbody ↦ ?_
      refine (ih rest).map fun branches _ hbranches ↦ ?_
      simpa using AreBranches.cons helse hif hcondition hbody hbranches
    · exact .pure .nil

theorem pursues_elseBlock (input : List Token) :
    Pursues (Reader.elseBlock rounds level) input IsOtherwise := by
  refine .get ?_
  split
  · next hword =>
    obtain ⟨word, rest, rfl, hword⟩ := Reader.exists_of_nextIsKeyword hword
    exact .skip ((pursues_block hlevel hsound rounds rest).mono fun body taken hbody ↦
      .block hword hbody)
  · exact .pure .absent

theorem pursues_conditional {word : Token} {rest : List Token} (hword : word.isKeyword "if" = true) :
    Pursues (Reader.conditional rounds level) (word :: rest) IsConditional := by
  refine .push (Run.bind_of_ok (Reader.expectKeyword_cons hword)) ?_
  refine .bind (hlevel.expression rest) (hsound.yields_expression rest)
    fun condition _ rest hcondition ↦ ?_
  refine .bind (pursues_block hlevel hsound rounds rest) (yields_block hsound rounds rest).derives
    fun body _ rest hbody ↦ ?_
  refine .bind (pursues_elseBranches hlevel hsound rounds rounds rest)
    ((yields_elseBranches hsound rounds rounds rest).mono fun _ _ htrees ↦ htrees.1)
    fun branches _ rest hbranches ↦ ?_
  refine (pursues_elseBlock hlevel hsound rounds rest).map fun otherwise _ hotherwise ↦ ?_
  simpa using IsConditional.branching hword hcondition hbody hbranches hotherwise

/-! ### The knot -/

theorem pursues_expressionWith (input : List Token) :
    Pursues (Reader.expressionWith rounds level) input IsExpression := by
  refine .get ?_
  split
  · exact (pursues_block hlevel hsound rounds input).mono fun tree taken htree ↦ .block htree
  · refine .get ?_
    split
    · next hif =>
      obtain ⟨word, rest, rfl, hword⟩ := Reader.exists_of_nextIsKeyword hif
      exact (pursues_conditional hlevel hsound rounds hword).mono fun tree taken htree ↦
        .conditional htree
    · exact pursues_comparison hlevel hsound rounds input

/-! ### Programs -/

theorem pursues_statements (more : Nat) :
    ∀ input, Pursues (Reader.statements level more) input AreStatements := by
  induction more with
  | zero => exact fun input ↦ .pure .nil
  | succ more ih =>
    intro input
    refine .get ?_
    split
    · exact .pure .nil
    · refine .bind (pursues_statement hlevel hsound input) (yields_statement hsound input).derives
        fun first taken rest hfirst ↦ ?_
      exact (ih rest).map fun others more hothers ↦ .cons hfirst hothers

theorem pursues_program (input : List Token) :
    Pursues (Reader.program rounds level) input IsProgram :=
  (pursues_statements hlevel hsound rounds input).map fun _ _ hstatements ↦ .program hstatements

end

theorem viable_level (rounds levels : Nat) : ViableLevel (Reader.level rounds levels) := by
  induction levels with
  | zero => exact ⟨pursues_type rounds 0, fun input ↦ .tooDeep viable_isExpression⟩
  | succ levels ih =>
    exact ⟨pursues_type rounds (levels + 1),
      pursues_expressionWith ih (sound_level rounds levels) rounds⟩

end LetLang
