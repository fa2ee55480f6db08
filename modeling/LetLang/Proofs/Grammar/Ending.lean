import LetLang.Proofs.Grammar.Backtracking
import LetLang.Proofs.Grammar.Completeness
import LetLang.Proofs.Grammar.Viability

/-!
# Nothing behind the end of the input is read

An `endOfStream` token and the place behind the last token look the same to every reader: each test
of the next token fails at both, and every reader that wants a token stops at both. So a list of
tokens is read in the same way with and without something behind it that starts with such a token
(`Overlooks`), up to the last token that is not behind the end.

Where a reader looks at the token after the next, it has looked at the next one first, and no reader
goes on after an `endOfStream` token there. So the token behind the end is looked at by no test that
could come out differently (`Ending.any_two_append`).

What is left to compare is the failure that a reader reports. Both count the same tokens before the
place where they stop; one may find nothing there and the other the token that ends the stream, and
the report of a syntax error does not tell the two apart (`parse_append_end`).
-/

set_option autoImplicit false

namespace LetLang

/-! ### What is behind the end -/

/-- Tokens at which the input ends: none, or some of which the first ends the stream. -/
structure Ending where
  tokens : List Token
  atEnd : Reader.atEnd tokens = true

namespace Ending

variable (ending : Ending) (input : List Token)

theorem eq_nil_or_cons : ending.tokens = [] ∨
    ∃ last others, ending.tokens = last :: others ∧ last.kind = .endOfStream := by
  cases htokens : ending.tokens with
  | nil => exact .inl rfl
  | cons last others =>
    have hatEnd := ending.atEnd
    rw [htokens] at hatEnd
    exact .inr ⟨last, others, rfl, by simpa [Reader.atEnd] using hatEnd⟩

/-- A function of the next token that has nothing to say about the end of the stream. -/
theorem head?_bind_append {α : Type} {choice : Token → Option α}
    (hchoice : ∀ last : Token, last.kind = .endOfStream → choice last = none) :
    (input ++ ending.tokens).head?.bind choice = input.head?.bind choice := by
  cases input with
  | cons token rest => rfl
  | nil =>
    obtain hnil | ⟨last, others, hcons, hlast⟩ := ending.eq_nil_or_cons
    · rw [hnil, List.append_nil]
    · rw [hcons, List.nil_append, List.head?_cons, Option.bind_some, hchoice last hlast]
      rfl

/-- A test of the next token that the end of the stream does not pass. -/
theorem head?_any_append {test : Token → Bool}
    (htest : ∀ last : Token, last.kind = .endOfStream → test last = false) :
    (input ++ ending.tokens).head?.any test = input.head?.any test := by
  cases input with
  | cons token rest => rfl
  | nil =>
    obtain hnil | ⟨last, others, hcons, hlast⟩ := ending.eq_nil_or_cons
    · rw [hnil, List.append_nil]
    · rw [hcons, List.nil_append, List.head?_cons, Option.any_some, htest last hlast]
      rfl

/-- A test of the next token and one of the token after it; the end of the stream passes neither. -/
theorem any_two_append {first second : Token → Bool}
    (hfirst : ∀ last : Token, last.kind = .endOfStream → first last = false)
    (hsecond : ∀ last : Token, last.kind = .endOfStream → second last = false) :
    ((input ++ ending.tokens).head?.any first && (input ++ ending.tokens)[1]?.any second) =
      (input.head?.any first && input[1]?.any second) := by
  rw [ending.head?_any_append input hfirst]
  cases input with
  | nil => rfl
  | cons token rest =>
    have hnext := ending.head?_any_append rest hsecond
    rw [List.head?_eq_getElem?, List.head?_eq_getElem?] at hnext
    rw [List.cons_append, List.getElem?_cons_succ, List.getElem?_cons_succ, hnext]

theorem nextIs_append {kind : TokenKind} (hkind : kind ≠ .endOfStream) :
    Reader.nextIs kind (input ++ ending.tokens) = Reader.nextIs kind input :=
  ending.head?_any_append input fun last hlast ↦ by simpa [hlast] using hkind.symm

theorem isKeyword_last {last : Token} (hlast : last.kind = .endOfStream) (word : Lexeme) :
    last.isKeyword word = false := by
  simp [Token.isKeyword, hlast]

theorem nextIsKeyword_append (word : String) :
    Reader.nextIsKeyword word (input ++ ending.tokens) = Reader.nextIsKeyword word input :=
  ending.head?_any_append input fun _ hlast ↦ isKeyword_last hlast word

theorem atEnd_append : Reader.atEnd (input ++ ending.tokens) = Reader.atEnd input := by
  cases input with
  | cons token rest => rfl
  | nil => exact ending.atEnd

theorem declKeyword?_append :
    Reader.declKeyword? (input ++ ending.tokens) = Reader.declKeyword? input := by
  unfold Reader.declKeyword?
  rw [nextIsKeyword_append, nextIsKeyword_append]

theorem startsAssignment_append :
    Reader.startsAssignment (input ++ ending.tokens) = Reader.startsAssignment input :=
  ending.any_two_append input (fun _ hlast ↦ by simp [hlast]) fun _ hlast ↦ by simp [hlast]

theorem startsBranch_append :
    (Reader.nextIsKeyword "else" (input ++ ending.tokens) &&
        Reader.secondIsKeyword "if" (input ++ ending.tokens)) =
      (Reader.nextIsKeyword "else" input && Reader.secondIsKeyword "if" input) :=
  ending.any_two_append input (fun _ hlast ↦ isKeyword_last hlast _)
    fun _ hlast ↦ isKeyword_last hlast _

end Ending

/-! ### Readers that overlook what is behind the end -/

/-- On an input of at most `room` tokens, with an ending behind it, the second reader does what the
first does without: it yields the same value or stops for the same reason, and leaves the same
tokens, with the ending behind them. -/
def Overlooks {α : Type} (ending : Ending) (room : Nat) (input : List Token)
    (reader reader' : Reader α) : Prop :=
  input.length ≤ room →
    match reader input with
    | .ok value rest => rest.length ≤ input.length ∧
        reader' (input ++ ending.tokens) = .ok value (rest ++ ending.tokens)
    | .error obstacle rest =>
        reader' (input ++ ending.tokens) = .error obstacle (rest ++ ending.tokens)

section

variable {α β : Type} {ending : Ending} {room : Nat} {input : List Token}

namespace Overlooks

theorem of_error {reader reader' : Reader α} {obstacle : Obstacle} {rest : List Token}
    (hread : reader input = .error obstacle rest)
    (hread' : reader' (input ++ ending.tokens) = .error obstacle (rest ++ ending.tokens)) :
    Overlooks ending room input reader reader' := by
  intro _
  rw [hread]
  exact hread'

theorem pure (value : α) : Overlooks ending room input (Pure.pure value) (Pure.pure value) :=
  fun _ ↦ ⟨Nat.le_refl _, rfl⟩

theorem fail (what : Expected) :
    Overlooks ending room input (Reader.fail what : Reader α) (Reader.fail what) :=
  of_error rfl rfl

theorem tooDeep : Overlooks ending room input (Reader.tooDeep : Reader α) Reader.tooDeep :=
  of_error rfl rfl

theorem bind {reader reader' : Reader α} {next next' : α → Reader β}
    (hreader : Overlooks ending room input reader reader')
    (hnext : ∀ value rest, reader input = .ok value rest → rest.length ≤ input.length →
      Overlooks ending room rest (next value) (next' value)) :
    Overlooks ending room input (reader >>= next) (reader' >>= next') := by
  intro hroom
  have hfirst := hreader hroom
  cases hread : reader input with
  | error obstacle rest =>
    rw [hread] at hfirst
    rw [Run.bind_of_error hread, Run.bind_of_error hfirst]
  | ok value rest =>
    rw [hread] at hfirst
    obtain ⟨hrest, hread'⟩ := hfirst
    have hsecond := hnext value rest hread hrest (Nat.le_trans hrest hroom)
    rw [Run.bind_of_ok hread, Run.bind_of_ok hread']
    cases hlast : next value rest with
    | error obstacle last =>
      rw [hlast] at hsecond
      exact hsecond
    | ok result last =>
      rw [hlast] at hsecond
      exact ⟨Nat.le_trans hsecond.1 hrest, hsecond.2⟩

/-- On the way to where other readers are compared. -/
theorem congr {reader reader' next next' : Reader α} {rest : List Token}
    (hnext : Overlooks ending room rest next next') (hread : reader input = next rest)
    (hread' : reader' (input ++ ending.tokens) = next' (rest ++ ending.tokens))
    (hrest : rest.length ≤ input.length) : Overlooks ending room input reader reader' := by
  intro hroom
  have hlater := hnext (Nat.le_trans hrest hroom)
  rw [hread, hread']
  cases hlast : next rest with
  | error obstacle last =>
    rw [hlast] at hlater
    exact hlater
  | ok result last =>
    rw [hlast] at hlater
    exact ⟨Nat.le_trans hlater.1 hrest, hlater.2⟩

theorem get {next next' : List Token → Reader α}
    (hnext : Overlooks ending room input (next input) (next' (input ++ ending.tokens))) :
    Overlooks ending room input (MonadState.get >>= next) (MonadState.get >>= next') := hnext

theorem skip {token : Token} {rest : List Token} {next next' : Unit → Reader α}
    (hnext : Overlooks ending room rest (next ()) (next' ())) :
    Overlooks ending room (token :: rest) (Reader.skip >>= next) (Reader.skip >>= next') :=
  congr hnext (Run.bind_of_ok Reader.skip_cons) (Run.bind_of_ok Reader.skip_cons)
    (Nat.le_succ rest.length)

theorem expect {kind : TokenKind} (hkind : kind ≠ .endOfStream) {next next' : Lexeme → Reader α}
    (hnext : ∀ lexeme rest, rest.length < input.length →
      Overlooks ending room rest (next lexeme) (next' lexeme)) :
    Overlooks ending room input (Reader.expect kind >>= next) (Reader.expect kind >>= next') := by
  cases hinput : Reader.nextIs kind input with
  | true =>
    obtain ⟨token, rest, rfl, htoken⟩ := Reader.exists_of_nextIs hinput
    exact congr (hnext token.lexeme rest (Nat.lt_succ_self _))
      (Run.bind_of_ok (Reader.expect_cons htoken)) (Run.bind_of_ok (Reader.expect_cons htoken))
      (Nat.le_succ rest.length)
  | false =>
    have hinput' := (ending.nextIs_append input hkind).trans hinput
    exact of_error (Run.bind_of_error (Reader.expect_of_not hinput))
      (Run.bind_of_error (Reader.expect_of_not hinput'))

theorem accept {kind : TokenKind} (hkind : kind ≠ .endOfStream) {next next' : Bool → Reader α}
    (hyes : ∀ rest, rest.length < input.length →
      Overlooks ending room rest (next true) (next' true))
    (hno : Overlooks ending room input (next false) (next' false)) :
    Overlooks ending room input (Reader.accept kind >>= next) (Reader.accept kind >>= next') := by
  cases hinput : Reader.nextIs kind input with
  | true =>
    obtain ⟨token, rest, rfl, htoken⟩ := Reader.exists_of_nextIs hinput
    exact congr (hyes rest (Nat.lt_succ_self _)) (Run.bind_of_ok (Reader.accept_cons htoken))
      (Run.bind_of_ok (Reader.accept_cons htoken)) (Nat.le_succ rest.length)
  | false =>
    have hinput' := (ending.nextIs_append input hkind).trans hinput
    exact congr hno (Run.bind_of_ok (Reader.accept_of_not hinput))
      (Run.bind_of_ok (Reader.accept_of_not hinput')) (Nat.le_refl _)

/-- A reader that stops where the input ends, and otherwise looks only at the next token. -/
theorem onHead {reader reader' : Reader α} {what : Expected}
    (hstop : ∀ rest, Reader.atEnd rest = true →
      reader rest = .error (.misfit (.expected what)) rest ∧
        reader' rest = .error (.misfit (.expected what)) rest)
    (hcons : ∀ token rest, input = token :: rest → Overlooks ending room input reader reader') :
    Overlooks ending room input reader reader' := by
  cases input with
  | nil => exact of_error (hstop [] rfl).1 (hstop ending.tokens ending.atEnd).2
  | cons token rest => exact hcons token rest rfl

/-- Loops with enough rounds for the tokens that are left, of which each round takes at least one.
With no tokens left the loops may have rounds left, in different numbers. -/
theorem loop {ι : Type} (reader reader' : Nat → ι → Reader α)
    (hend : ∀ rounds rounds' state,
      Overlooks ending room [] (reader rounds state) (reader' rounds' state))
    (hstep : ∀ rounds rounds' input state,
      (∀ rest state, rest.length < input.length →
        Overlooks ending room rest (reader rounds state) (reader' rounds' state)) →
      Overlooks ending room input (reader (rounds + 1) state) (reader' (rounds' + 1) state))
    {rounds rounds' : Nat} (hrounds : room ≤ min rounds rounds') (input : List Token) (state : ι) :
    Overlooks ending room input (reader rounds state) (reader' rounds' state) := by
  have hall : ∀ rounds rounds' (input : List Token) state, input.length ≤ rounds →
      input.length ≤ rounds' →
        Overlooks ending room input (reader rounds state) (reader' rounds' state) := by
    intro rounds
    induction rounds with
    | zero =>
      intro rounds' input state hlength _
      obtain rfl := List.length_eq_zero_iff.mp (Nat.le_zero.mp hlength)
      exact hend 0 rounds' state
    | succ rounds ih =>
      intro rounds' input state hlength hlength'
      cases rounds' with
      | zero =>
        obtain rfl := List.length_eq_zero_iff.mp (Nat.le_zero.mp hlength')
        exact hend (rounds + 1) 0 state
      | succ rounds' =>
        exact hstep rounds rounds' input state
          fun rest state hrest ↦ ih rounds' rest state (by omega) (by omega)
  intro hroom
  obtain ⟨hhere, hthere⟩ := Nat.le_min.mp hrounds
  exact hall rounds rounds' input state (Nat.le_trans hroom hhere) (Nat.le_trans hroom hthere) hroom

end Overlooks

end

/-- A reader that takes tokens leaves fewer. -/
theorem Yields.length_lt {α : Type} {reader : Reader α} {input rest : List Token}
    {property : α → List Token → Prop} (hyields : Yields reader input property)
    (hne : ∀ value tokens, property value tokens → tokens ≠ []) {value : α}
    (hread : reader input = .ok value rest) : rest.length < input.length := by
  obtain ⟨taken, rfl, -, hvalue⟩ := hyields value rest hread
  have hpositive := List.length_pos_iff.mpr (hne value taken hvalue)
  rw [List.length_append]
  omega

/-! ### Lists and types -/

section

variable {α : Type} {ending : Ending} {room rounds rounds' : Nat}
  (hrounds : room ≤ min rounds rounds')

include hrounds

theorem overlooks_afterCommas {item item' : Reader α}
    (hitem : ∀ input, Overlooks ending room input item item') (input : List Token) :
    Overlooks ending room input (Reader.afterCommas item rounds)
      (Reader.afterCommas item' rounds') := by
  refine Overlooks.loop (fun rounds _ ↦ Reader.afterCommas item rounds)
    (fun rounds _ ↦ Reader.afterCommas item' rounds) ?_ ?_ hrounds input ()
  · intro rounds rounds' _
    have hend := ending.nextIs_append [] (show TokenKind.comma ≠ .endOfStream by decide)
    exact .congr (.pure []) (afterCommas_of_not rfl rounds) (afterCommas_of_not hend rounds')
      (Nat.le_refl _)
  · intro rounds rounds' input _ ih
    refine .accept (by decide) (fun rest hrest ↦ ?_) (.pure [])
    refine .bind (hitem rest) fun first later _ hlater ↦ ?_
    exact .bind (ih later () (by omega)) fun _ _ _ _ ↦ .pure _

theorem overlooks_listed {item item' : Reader α}
    (hitem : ∀ input, Overlooks ending room input item item') (input : List Token) :
    Overlooks ending room input (Reader.listed rounds item) (Reader.listed rounds' item') := by
  refine .expect (by decide) fun _ rest _ ↦ .get ?_
  rw [ending.nextIs_append rest (by decide)]
  split
  · exact .expect (by decide) fun _ _ _ ↦ .pure []
  · refine .bind (hitem rest) fun first later _ _ ↦ ?_
    refine .bind (overlooks_afterCommas hrounds hitem later) fun _ _ _ _ ↦ ?_
    exact .expect (by decide) fun _ _ _ ↦ .pure _

omit hrounds in
theorem typeWith_of_atEnd {function : Reader Tree} {rest : List Token}
    (hrest : Reader.atEnd rest = true) :
    Reader.typeWith function rest = .error (.misfit (.expected .type)) rest := by
  cases rest with
  | nil => rfl
  | cons last others =>
    have hlast : last.kind = .endOfStream := by simpa [Reader.atEnd] using hrest
    unfold Reader.typeWith
    rw [Run.get_bind, List.head?_cons]
    simp only [hlast]
    rfl

omit hrounds in
theorem overlooks_typeWith {function function' : Reader Tree} {input : List Token}
    (hfunction : Overlooks ending room input function function') :
    Overlooks ending room input (Reader.typeWith function) (Reader.typeWith function') := by
  refine .onHead (fun rest hrest ↦ ⟨typeWith_of_atEnd hrest, typeWith_of_atEnd hrest⟩) ?_
  rintro token rest rfl
  refine .get ?_
  simp only [List.cons_append, List.head?_cons]
  split
  · cases token.lexeme.bind DataType.ofName? with
    | none => exact .of_error rfl rfl
    | some name => exact .skip (.pure _)
  split
  · exact hfunction
  · exact .fail .type

theorem overlooks_functionType {type type' : Reader Tree}
    (htype : ∀ input, Overlooks ending room input type type') (input : List Token) :
    Overlooks ending room input (Reader.functionType rounds type)
      (Reader.functionType rounds' type') := by
  have hparameter : ∀ input,
      Overlooks ending room input (Reader.parameter type) (Reader.parameter type') := by
    intro input
    refine .expect (by decide) fun _ rest _ ↦ .expect (by decide) fun _ rest _ ↦ ?_
    exact .bind (htype rest) fun _ _ _ _ ↦ .pure _
  refine .bind (overlooks_listed hrounds hparameter input) fun _ rest _ _ ↦ ?_
  refine .expect (by decide) fun _ rest _ ↦ ?_
  exact .bind (htype rest) fun _ _ _ _ ↦ .pure _

theorem overlooks_type (levels : Nat) : ∀ input,
    Overlooks ending room input (Reader.type rounds levels) (Reader.type rounds' levels) := by
  induction levels with
  | zero => exact fun input ↦ overlooks_typeWith .tooDeep
  | succ levels ih =>
    exact fun input ↦ overlooks_typeWith (overlooks_functionType hrounds ih input)

end

/-! ### Expressions -/

/-- What one level reads, the other reads with the ending behind it. -/
structure OverlooksLevel (ending : Ending) (room : Nat) (level level' : ReaderLevel) : Prop where
  type : ∀ input, Overlooks ending room input level.type level'.type
  expression : ∀ input, Overlooks ending room input level.expression level'.expression

theorem factor_of_atEnd {rounds : Nat} {level : ReaderLevel} {rest : List Token}
    (hrest : Reader.atEnd rest = true) :
    Reader.factor rounds level rest = .error (.misfit (.expected .expression)) rest := by
  cases rest with
  | nil => rfl
  | cons last others =>
    have hlast : last.kind = .endOfStream := by simpa [Reader.atEnd] using hrest
    unfold Reader.factor
    rw [Run.get_bind, List.head?_cons]
    simp only [hlast]
    rfl

section

variable {ending : Ending} {room rounds rounds' : Nat}
  (hrounds : room ≤ min rounds rounds')

include hrounds

theorem overlooks_chain {operation? : TokenKind → Option ArithOp} {operand operand' : Reader Tree}
    (hoperation : operation? .endOfStream = none)
    (hoperand : ∀ input, Overlooks ending room input operand operand') (input : List Token)
    (left : Tree) :
    Overlooks ending room input (Reader.chain operation? operand rounds left)
      (Reader.chain operation? operand' rounds' left) := by
  have happend : ∀ input : List Token, (input ++ ending.tokens).head?.bind (operation? ·.kind) =
      input.head?.bind (operation? ·.kind) :=
    fun input ↦ ending.head?_bind_append input fun _ hlast ↦ by rw [hlast, hoperation]
  refine Overlooks.loop (Reader.chain operation? operand) (Reader.chain operation? operand') ?_ ?_
    hrounds input left
  · intro rounds rounds' left
    exact .congr (.pure left) (chain_of_no_operator rfl rounds)
      (chain_of_no_operator (happend []) rounds') (Nat.le_refl _)
  · intro rounds rounds' input left ih
    refine .get ?_
    rw [happend]
    cases hop : input.head?.bind (operation? ·.kind) with
    | none => exact .pure left
    | some op =>
      obtain ⟨operator, hoperator, -⟩ := Option.bind_eq_some_iff.mp hop
      obtain ⟨rest, rfl⟩ := List.head?_eq_some_iff.mp hoperator
      refine .skip (.bind (hoperand rest) fun right later _ hlater ↦ ?_)
      exact ih later (.arith op left right) (Nat.lt_succ_of_le hlater)

variable {level level' : ReaderLevel} (hlevel : OverlooksLevel ending room level level')

include hlevel

theorem overlooks_factor (input : List Token) :
    Overlooks ending room input (Reader.factor rounds level) (Reader.factor rounds' level') := by
  refine .onHead (fun rest hrest ↦ ⟨factor_of_atEnd hrest, factor_of_atEnd hrest⟩) ?_
  rintro token rest rfl
  refine .get ?_
  simp only [List.cons_append, List.head?_cons]
  split
  · exact .skip (.pure _)
  split
  · unfold Reader.typedLiteral
    cases token.number? with
    | none => exact .fail .expression
    | some number => exact .skip (.pure number)
  split
  · refine .skip (.get ?_)
    rw [ending.nextIs_append rest (by decide)]
    split
    · exact .bind (overlooks_listed hrounds hlevel.expression rest)
        fun _ _ _ _ ↦ .pure _
    · exact .pure _
  split
  · refine .skip (.bind (hlevel.expression rest) fun inner later _ _ ↦ ?_)
    exact .expect (by decide) fun _ _ _ ↦ .pure _
  · exact .fail .expression

theorem overlooks_term (input : List Token) :
    Overlooks ending room input (Reader.term rounds level) (Reader.term rounds' level') := by
  have hfactor := overlooks_factor hrounds hlevel
  have hchain := overlooks_chain hrounds (show multiplicativeOp? .endOfStream = none from rfl)
    hfactor
  refine .accept (by decide) (fun rest _ ↦ ?_) ?_
  · exact .bind (hfactor rest) fun first later _ _ ↦ hchain later (.negation first)
  · exact .bind (hfactor input) fun first later _ _ ↦ hchain later first

theorem overlooks_additive (input : List Token) :
    Overlooks ending room input (Reader.additive rounds level)
      (Reader.additive rounds' level') := by
  have hterm := overlooks_term hrounds hlevel
  exact .bind (hterm input) fun first later _ _ ↦
    overlooks_chain hrounds rfl hterm later first

theorem overlooks_comparison (input : List Token) :
    Overlooks ending room input (Reader.comparison rounds level)
      (Reader.comparison rounds' level') := by
  have hadditive := overlooks_additive hrounds hlevel
  refine .bind (hadditive input) fun left rest _ _ ↦ .get ?_
  rw [ending.head?_bind_append rest fun _ hlast ↦ by rw [hlast]; rfl]
  cases hop : rest.head?.bind (CompareOp.ofKind? ·.kind) with
  | none => exact .pure left
  | some op =>
    obtain ⟨operator, hoperator, -⟩ := Option.bind_eq_some_iff.mp hop
    obtain ⟨others, rfl⟩ := List.head?_eq_some_iff.mp hoperator
    exact .skip (.bind (hadditive others) fun _ _ _ _ ↦ .pure _)

end

/-! ### Statements -/

section

variable {ending : Ending} {room levels : Nat} {level level' : ReaderLevel}
  (hlevel : OverlooksLevel ending room level level')

include hlevel

theorem overlooks_declaration {input : List Token} {keyword : DeclKeyword}
    (hkeyword : Reader.declKeyword? input = some keyword) :
    Overlooks ending room input (Reader.declaration level keyword)
      (Reader.declaration level' keyword) := by
  obtain ⟨word, rest, rfl, -⟩ := Reader.exists_of_declKeyword? hkeyword
  refine .skip (.expect (by decide) fun _ rest _ ↦ .expect (by decide) fun _ rest _ ↦ ?_)
  refine .bind (hlevel.type rest) fun _ rest _ _ ↦ .expect (by decide) fun _ rest _ ↦ ?_
  refine .bind (hlevel.expression rest) fun _ rest _ _ ↦ ?_
  exact .expect (by decide) fun _ _ _ ↦ .pure _

theorem overlooks_assignment (input : List Token) :
    Overlooks ending room input (Reader.assignment level) (Reader.assignment level') := by
  refine .expect (by decide) fun _ rest _ ↦ .expect (by decide) fun _ rest _ ↦ ?_
  refine .bind (hlevel.expression rest) fun _ rest _ _ ↦ ?_
  exact .expect (by decide) fun _ _ _ ↦ .pure _

theorem overlooks_expressionStatement (input : List Token) :
    Overlooks ending room input (Reader.expressionStatement level)
      (Reader.expressionStatement level') := by
  refine .bind (hlevel.expression input) fun expression rest _ _ ↦ ?_
  split
  · exact .accept (by decide) (fun _ _ ↦ .pure _) (.pure _)
  · exact .expect (by decide) fun _ _ _ ↦ .pure _

theorem overlooks_statement (input : List Token) :
    Overlooks ending room input (Reader.statement level) (Reader.statement level') := by
  refine .get ?_
  rw [ending.declKeyword?_append]
  cases hkeyword : Reader.declKeyword? input with
  | some keyword => exact overlooks_declaration hlevel hkeyword
  | none =>
    refine .get ?_
    rw [ending.startsAssignment_append]
    split
    · exact overlooks_assignment hlevel input
    · exact overlooks_expressionStatement hlevel input

end

/-! ### Blocks and conditionals -/

section

variable {ending : Ending} {room : Nat}

theorem overlooks_closingBrace (input : List Token) :
    Overlooks (α := List Tree × Tree) ending room input
      (do let _ ← Reader.expect .rightCurly; return ([], .absent))
      (do let _ ← Reader.expect .rightCurly; return ([], .absent)) :=
  .expect (by decide) fun _ _ _ ↦ .pure _

theorem overlooks_prepend {input : List Token} {more more' : Reader (List Tree × Tree)}
    (first : Tree) (hmore : Overlooks ending room input more more') :
    Overlooks ending room input (Reader.prepend first more) (Reader.prepend first more') :=
  .bind hmore fun _ _ _ _ ↦ .pure _

theorem overlooks_afterExpression {input : List Token} {more more' : Reader (List Tree × Tree)}
    (expression : Tree)
    (hmore : ∀ rest : List Token, rest.length ≤ input.length →
      Overlooks ending room rest more more') :
    Overlooks ending room input (Reader.afterExpression expression more)
      (Reader.afterExpression expression more') := by
  refine .get ?_
  rw [ending.nextIs_append input (by decide)]
  split
  · next hright =>
    obtain ⟨right, rest, rfl, -⟩ := Reader.exists_of_nextIs hright
    exact .skip (.pure _)
  split
  · refine .accept (by decide) (fun rest hrest ↦ ?_) ?_
    · exact overlooks_prepend _ (hmore rest (Nat.le_of_lt hrest))
    · exact overlooks_prepend _ (hmore input (Nat.le_refl _))
  · exact .expect (by decide) fun _ rest hrest ↦
      overlooks_prepend _ (hmore rest (Nat.le_of_lt hrest))

/-- Where the input ends, a block is not closed. -/
theorem elements_of_atEnd {level : ReaderLevel} {rest : List Token}
    (hrest : Reader.atEnd rest = true) (fuel : Nat) :
    Reader.elements level fuel rest =
      (do let _ ← Reader.expect .rightCurly; return ([], Tree.absent)) rest := by
  cases fuel with
  | zero => rfl
  | succ fuel => rw [Reader.elements, Run.get_bind, Run.get_bind, if_pos (by simp [hrest])]

variable {rounds rounds' levels : Nat} {level level' : ReaderLevel}
  (hrounds : room ≤ min rounds rounds')
  (hlevel : OverlooksLevel ending room level level') (hsound : SoundLevel level levels)

include hrounds hlevel hsound

theorem overlooks_elements (input : List Token) :
    Overlooks ending room input (Reader.elements level rounds)
      (Reader.elements level' rounds') := by
  refine Overlooks.loop (fun rounds _ ↦ Reader.elements level rounds)
    (fun rounds _ ↦ Reader.elements level' rounds) ?_ ?_ hrounds input ()
  · intro rounds rounds' _
    exact .congr (overlooks_closingBrace []) (elements_of_atEnd rfl rounds)
      (elements_of_atEnd ending.atEnd rounds') (Nat.le_refl _)
  intro rounds rounds' input _ ih
  refine .get (.get ?_)
  rw [ending.nextIs_append input (by decide), ending.atEnd_append]
  split
  · exact overlooks_closingBrace input
  refine .get ?_
  rw [ending.declKeyword?_append]
  cases hkeyword : Reader.declKeyword? input with
  | some keyword =>
    refine .bind (overlooks_declaration hlevel hkeyword) fun first rest hread _ ↦ ?_
    have hrest := (yields_declaration hsound hkeyword).length_lt
      (fun _ _ hended ↦ (IsStatement.ended hended.1).ne_nil) hread
    exact overlooks_prepend first (ih rest () hrest)
  | none =>
    refine .get ?_
    rw [ending.startsAssignment_append]
    split
    · refine .bind (overlooks_assignment hlevel input) fun first rest hread _ ↦ ?_
      have hrest := (yields_assignment hsound input).length_lt
        (fun _ _ hended ↦ (IsStatement.ended hended.1).ne_nil) hread
      exact overlooks_prepend first (ih rest () hrest)
    · refine .bind (hlevel.expression input) fun expression rest hread _ ↦ ?_
      have hrest := (hsound.yields_expression input).length_lt
        (fun _ _ hexpression ↦ hexpression.ne_nil) hread
      exact overlooks_afterExpression expression fun last hlast ↦ ih last () (by omega)

theorem overlooks_block (input : List Token) :
    Overlooks ending room input (Reader.block rounds level) (Reader.block rounds' level') :=
  .expect (by decide) fun _ rest _ ↦
    .bind (overlooks_elements hrounds hlevel hsound rest) fun _ _ _ _ ↦ .pure _

theorem overlooks_elseBranches (input : List Token) :
    Overlooks ending room input (Reader.elseBranches rounds level rounds)
      (Reader.elseBranches rounds' level' rounds') := by
  refine Overlooks.loop (fun more _ ↦ Reader.elseBranches rounds level more)
    (fun more _ ↦ Reader.elseBranches rounds' level' more) ?_ ?_ hrounds input ()
  · intro more more' _
    exact .congr (.pure []) (elseBranches_of_not rfl more)
      (elseBranches_of_not (ending.startsBranch_append []) more') (Nat.le_refl _)
  intro more more' input _ ih
  refine .get (.get ?_)
  rw [ending.startsBranch_append]
  split
  · next hwords =>
    obtain ⟨helse, hif⟩ := Bool.and_eq_true_iff.mp hwords
    obtain ⟨elseWord, others, rfl, -⟩ := Reader.exists_of_nextIsKeyword helse
    obtain ⟨ifWord, others, rfl, -⟩ := Reader.exists_of_secondIsKeyword hif
    refine .skip (.skip (.bind (hlevel.expression others) fun _ rest _ hcondition ↦ ?_))
    refine .bind (overlooks_block hrounds hlevel hsound rest) fun _ last _ hbody ↦ ?_
    have hlast : last.length < (elseWord :: ifWord :: others).length := by
      simp only [List.length_cons]
      omega
    exact .bind (ih last () hlast) fun _ _ _ _ ↦ .pure _
  · exact .pure []

theorem overlooks_elseBlock (input : List Token) :
    Overlooks ending room input (Reader.elseBlock rounds level)
      (Reader.elseBlock rounds' level') := by
  refine .get ?_
  rw [ending.nextIsKeyword_append]
  split
  · next hword =>
    obtain ⟨word, rest, rfl, -⟩ := Reader.exists_of_nextIsKeyword hword
    exact .skip (overlooks_block hrounds hlevel hsound rest)
  · exact .pure _

theorem overlooks_conditional {input : List Token}
    (hif : Reader.nextIsKeyword "if" input = true) :
    Overlooks ending room input (Reader.conditional rounds level)
      (Reader.conditional rounds' level') := by
  obtain ⟨word, rest, rfl, hword⟩ := Reader.exists_of_nextIsKeyword hif
  refine .congr (?_ : Overlooks ending room rest _ _)
    (Run.bind_of_ok (Reader.expectKeyword_cons hword))
    (Run.bind_of_ok (Reader.expectKeyword_cons hword)) (Nat.le_succ rest.length)
  refine .bind (hlevel.expression rest) fun _ rest _ _ ↦ ?_
  refine .bind (overlooks_block hrounds hlevel hsound rest) fun _ rest _ _ ↦ ?_
  refine .bind (overlooks_elseBranches hrounds hlevel hsound rest) fun _ rest _ _ ↦ ?_
  exact .bind (overlooks_elseBlock hrounds hlevel hsound rest) fun _ _ _ _ ↦ .pure _

/-! ### The knot -/

theorem overlooks_expressionWith (input : List Token) :
    Overlooks ending room input (Reader.expressionWith rounds level)
      (Reader.expressionWith rounds' level') := by
  refine .get ?_
  rw [ending.nextIs_append input (by decide)]
  split
  · exact overlooks_block hrounds hlevel hsound input
  refine .get ?_
  rw [ending.nextIsKeyword_append]
  split
  · next hif => exact overlooks_conditional hrounds hlevel hsound hif
  · exact overlooks_comparison hrounds hlevel input

theorem overlooks_statements (input : List Token) :
    Overlooks ending room input (Reader.statements level rounds)
      (Reader.statements level' rounds') := by
  refine Overlooks.loop (fun rounds _ ↦ Reader.statements level rounds)
    (fun rounds _ ↦ Reader.statements level' rounds) ?_ ?_ hrounds input ()
  · intro rounds rounds' _
    exact .congr (.pure []) (statements_of_atEnd rfl rounds)
      (statements_of_atEnd ending.atEnd rounds') (Nat.le_refl _)
  intro rounds rounds' input _ ih
  refine .get ?_
  rw [ending.atEnd_append]
  split
  · exact .pure []
  · refine .bind (overlooks_statement hlevel input) fun first rest hread _ ↦ ?_
    have hrest := (yields_statement hsound input).length_lt
      (fun _ _ hstatement ↦ hstatement.1.ne_nil) hread
    exact .bind (ih rest () hrest) fun _ _ _ _ ↦ .pure _

end

theorem overlooks_level {ending : Ending} {room rounds rounds' : Nat}
    (hrounds : room ≤ min rounds rounds') (levels : Nat) :
    OverlooksLevel ending room (Reader.level rounds levels) (Reader.level rounds' levels) := by
  induction levels with
  | zero => exact ⟨overlooks_type hrounds 0, fun input ↦ .tooDeep⟩
  | succ levels ih =>
    exact ⟨overlooks_type hrounds (levels + 1),
      overlooks_expressionWith hrounds ih (sound_level rounds levels)⟩

/-! ### Programs -/

/-- With an ending behind it, a whole program is read as without. -/
theorem overlooks_program (ending : Ending) (tokens : List Token) :
    Overlooks ending tokens.length tokens
      (Reader.program tokens.length (Reader.level tokens.length nestingLimit))
      (Reader.program (tokens ++ ending.tokens).length
        (Reader.level (tokens ++ ending.tokens).length nestingLimit)) := by
  have hrounds : tokens.length ≤ min tokens.length (tokens ++ ending.tokens).length := by simp
  have hlevel : OverlooksLevel ending tokens.length _ _ := overlooks_level hrounds nestingLimit
  exact .bind (overlooks_statements hrounds hlevel (sound_level _ _) tokens)
    fun _ _ _ _ ↦ .pure _

/-- Two outcomes of parsing that nobody can tell apart by what they report: the same program, two
syntax errors with the same report, of which the first may be about no token where the second is
about the given one, or the same failure of another sort. -/
inductive SameOutcome (last : Token) : Except ParseFailure Tree → Except ParseFailure Tree → Prop
  | program (tree : Tree) : SameOutcome last (.ok tree) (.ok tree)
  | syntaxError {error error' : SyntaxError} (hreport : error'.diagnostic = error.diagnostic)
      (htoken : error'.token? = error.token? ∨ error.token? = none ∧ error'.token? = some last) :
      SameOutcome last (.error (.syntaxError error)) (.error (.syntaxError error'))
  | otherwise {failure : ParseFailure} (hfailure : ∀ error, failure ≠ .syntaxError error) :
      SameOutcome last (.error failure) (.error failure)

/-- The report of a syntax error depends on its token only as far as that is not the end of the
stream. -/
theorem SyntaxError.diagnostic_congr {cause : SyntaxCause} {position : Int}
    {token? token?' : Option Token}
    (htoken : token?'.filter (·.kind != .endOfStream) = token?.filter (·.kind != .endOfStream)) :
    diagnostic ⟨cause, position, token?'⟩ = diagnostic ⟨cause, position, token?⟩ := by
  unfold diagnostic found?
  rw [htoken]

/-- A reader that stops reports the same failure with and without the ending. -/
theorem sameOutcome_failure {last : Token} {others : List Token} (hlast : last.kind = .endOfStream)
    (total : Nat) (rest : List Token) (obstacle : Obstacle) :
    SameOutcome last (.error (obstacle.failure total rest))
      (.error (obstacle.failure (total + (last :: others).length) (rest ++ last :: others))) := by
  cases obstacle with
  | unknownDataType lexeme => exact .otherwise fun _ hcontrary ↦ by cases hcontrary
  | misfit cause =>
    have hposition : total + (last :: others).length - (rest ++ last :: others).length =
        total - rest.length := by
      rw [List.length_append]
      omega
    unfold Obstacle.failure
    rw [hposition]
    cases rest with
    | cons token more => exact .syntaxError rfl (.inl rfl)
    | nil =>
      refine .syntaxError (SyntaxError.diagnostic_congr ?_) (.inr ⟨rfl, rfl⟩)
      simp [hlast]

/-- Neither the token that ends the stream nor anything behind it changes what a list of tokens is
parsed to. -/
theorem parse_append_end (tokens others : List Token) (lexeme : Lexeme) :
    SameOutcome ⟨.endOfStream, lexeme⟩ (parse tokens)
      (parse (tokens ++ ⟨.endOfStream, lexeme⟩ :: others)) := by
  have hread := overlooks_program ⟨⟨.endOfStream, lexeme⟩ :: others, rfl⟩ tokens (Nat.le_refl _)
  rw [parse_eq_predict, parse_eq_predict, predict, predict]
  split at hread
  · next tree rest hprogram =>
    rw [hprogram, hread.2]
    exact .program tree
  · next obstacle rest hstop =>
    rw [hstop, hread, List.length_append]
    exact sameOutcome_failure rfl tokens.length rest obstacle

end LetLang
