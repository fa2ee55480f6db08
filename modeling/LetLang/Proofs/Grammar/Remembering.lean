import LetLang.Proofs.Grammar.Backtracking

/-!
# Remembering cannot be seen

The parser remembers what it found out about the expression that starts at an index, so that moving
back inside a block does not read the same tokens twice. Here the same rules are tied together
without that (`Rule.expressionAfresh`): every expression is read anew wherever it is asked for,
also the one that a block has just read as a statement and moved back from. `parse` and
`parseAfresh` come to the same tree or to the same failure on every token list
(`parse_eq_parseAfresh`).

What a rule remembers is keyed by the index alone, while its outcome depends on the number of levels
that are still open to it as well. That no index is asked for at two levels is not shown directly.
Both parsers follow the same readers: a rule that remembers, because what it finds again is what it
stored (`replays_remembered`), and a rule that does not, because it leaves the memo as it was
(`KeepsMemo`) and therefore finds a fresh cursor when it is run again (`replays_of_keepsMemo`).
-/

set_option autoImplicit false

namespace LetLang

/-! ### Rules without a memo -/

namespace Rule

variable (tokens : Array Token)

/-- An expression with at most the given number of levels, read anew wherever it is asked for. -/
def expressionAfresh : Nat → Rule Tree
  | 0 => tooDeep tokens
  | levels + 1 => expressionWith tokens ⟨typeRule tokens levels, expressionAfresh levels⟩

/-- The rules that may still open the given number of levels and remember nothing. -/
def levelAfresh (levels : Nat) : Level := ⟨typeRule tokens levels, expressionAfresh tokens levels⟩

end Rule

/-- The program that a list of tokens stands for, or why there is none, parsed without a memo. -/
def parseAfresh (tokens : List Token) : Except ParseFailure Tree :=
  match Rule.program tokens.toArray (Rule.levelAfresh tokens.toArray nestingLimit) {} with
  | .ok tree _ => .ok tree
  | .error failure _ => .error failure

/-! ### Rules that keep the memo -/

/-- The cursor at which a rule ended. -/
def cursorAfter {α : Type} : EStateM.Result ParseFailure Cursor α → Cursor
  | .ok _ after => after
  | .error _ after => after

/-- The rule leaves the memo as it was, however it ends. -/
def KeepsMemo {α : Type} (rule : Rule α) : Prop :=
  ∀ cursor, (cursorAfter (rule cursor)).memo = cursor.memo

namespace KeepsMemo

variable {α β : Type} {tokens : Array Token}

theorem pure (value : α) : KeepsMemo (Pure.pure value : Rule α) := fun _ ↦ rfl

theorem throw (failure : ParseFailure) : KeepsMemo (throwThe ParseFailure failure : Rule α) :=
  fun _ ↦ rfl

theorem get : KeepsMemo (MonadState.get : Rule Cursor) := fun _ ↦ rfl

theorem skip : KeepsMemo Rule.skip := fun _ ↦ rfl

theorem bind {rule : Rule α} {next : α → Rule β} (hrule : KeepsMemo rule)
    (hnext : ∀ value, KeepsMemo (next value)) : KeepsMemo (rule >>= next) := by
  intro cursor
  have hfirst := hrule cursor
  cases hrun : rule cursor with
  | error failure after =>
    rw [hrun] at hfirst
    rw [Run.bind_of_error hrun]
    exact hfirst
  | ok value after =>
    rw [hrun] at hfirst
    rw [Run.bind_of_ok hrun]
    exact (hnext value after).trans hfirst

theorem fail (what : Expected) : KeepsMemo (Rule.fail tokens what : Rule α) := fun _ ↦ rfl

theorem accept (kind : TokenKind) : KeepsMemo (Rule.accept tokens kind) := by
  refine bind get fun cursor ↦ ?_
  split
  · exact bind skip fun _ ↦ pure true
  · exact pure false

theorem expect (kind : TokenKind) : KeepsMemo (Rule.expect tokens kind) := by
  refine bind get fun cursor ↦ ?_
  split
  · split
    · exact bind skip fun _ ↦ pure _
    · exact fail _
  · exact fail _

theorem expectKeyword (word : String) : KeepsMemo (Rule.expectKeyword tokens word) := by
  refine bind get fun cursor ↦ ?_
  split
  · exact skip
  · exact fail _

theorem advance : KeepsMemo (Rule.advance tokens) := by
  refine bind get fun cursor ↦ ?_
  have hread : KeepsMemo (do
      let cursor ← MonadState.get
      if tokens.size < cursor.index then throwThe ParseFailure .outOfRange
      return cursor.previous? tokens : Rule (Option Token)) := by
    refine bind get fun cursor ↦ ?_
    split
    · exact bind (throw _) fun _ ↦ pure _
    · exact pure _
  split
  · exact bind skip fun _ ↦ hread
  · exact hread

/-- Moving back restores the index and leaves the memo. -/
theorem speculate {rule : Rule α} (hrule : KeepsMemo rule) : KeepsMemo (Rule.speculate rule) := by
  intro cursor
  have hfirst := hrule cursor
  unfold Rule.speculate
  split
  · next hrun => rwa [hrun] at hfirst
  · next hrun => rwa [hrun] at hfirst
  · next hrun => rwa [hrun] at hfirst

end KeepsMemo

/-! ### The rules of the grammar keep the memo -/

section

open KeepsMemo

variable {α : Type} {tokens : Array Token}

theorem keepsMemo_afterCommas {item : Rule α} (hitem : KeepsMemo item) (rounds : Nat) :
    KeepsMemo (Rule.afterCommas tokens item rounds) := by
  induction rounds with
  | zero => exact pure []
  | succ rounds ih =>
    refine bind (accept .comma) fun found ↦ ?_
    split
    · exact bind hitem fun _ ↦ bind ih fun _ ↦ pure _
    · exact pure []

theorem keepsMemo_listed {item : Rule α} (hitem : KeepsMemo item) :
    KeepsMemo (Rule.listed tokens item) := by
  refine bind (expect .leftParen) fun _ ↦ bind get fun cursor ↦ ?_
  split
  · exact bind (expect .rightParen) fun _ ↦ pure []
  · refine bind hitem fun _ ↦ bind (keepsMemo_afterCommas hitem _) fun _ ↦ ?_
    exact bind (expect .rightParen) fun _ ↦ pure _

theorem keepsMemo_typeWith {function : Rule Tree} (hfunction : KeepsMemo function) :
    KeepsMemo (Rule.typeWith tokens function) := by
  refine bind get fun cursor ↦ ?_
  split
  · split
    · refine bind skip fun _ ↦ ?_
      split
      · exact pure _
      · exact throw _
    · split
      · exact hfunction
      · exact fail _
  · exact fail _

theorem keepsMemo_functionType {type : Rule Tree} (htype : KeepsMemo type) :
    KeepsMemo (Rule.functionType tokens type) := by
  have hparameter : KeepsMemo (Rule.parameter tokens type) :=
    bind (expect .identifier) fun _ ↦ bind (expect .colon) fun _ ↦ bind htype fun _ ↦ pure _
  refine bind (keepsMemo_listed hparameter) fun _ ↦ ?_
  exact bind (expect .arrow) fun _ ↦ bind htype fun _ ↦ pure _

theorem keepsMemo_typeRule (levels : Nat) : KeepsMemo (Rule.typeRule tokens levels) := by
  induction levels with
  | zero => exact keepsMemo_typeWith fun _ ↦ rfl
  | succ levels ih => exact keepsMemo_typeWith (keepsMemo_functionType ih)

theorem keepsMemo_typedLiteral (token : Token) : KeepsMemo (Rule.typedLiteral token) := by
  refine bind get fun start ↦ bind skip fun _ ↦ ?_
  split
  · exact pure _
  · exact throw _

theorem keepsMemo_chain {operation? : TokenKind → Option ArithOp} {operand : Rule Tree}
    (hoperand : KeepsMemo operand) (rounds : Nat) :
    ∀ left, KeepsMemo (Rule.chain tokens operation? operand rounds left) := by
  induction rounds with
  | zero => exact fun left ↦ pure left
  | succ rounds ih =>
    intro left
    refine bind get fun cursor ↦ ?_
    split
    · exact bind skip fun _ ↦ bind hoperand fun _ ↦ ih _
    · exact pure left

variable {level : Level} (hexpression : KeepsMemo level.expression)

include hexpression

theorem keepsMemo_factor : KeepsMemo (Rule.factor tokens level) := by
  refine bind get fun cursor ↦ ?_
  split
  · split
    · exact bind skip fun _ ↦ pure _
    split
    · exact keepsMemo_typedLiteral _
    split
    · refine bind skip fun _ ↦ bind get fun cursor ↦ ?_
      split
      · exact bind (keepsMemo_listed hexpression) fun _ ↦ pure _
      · exact pure _
    split
    · exact bind skip fun _ ↦ bind hexpression fun _ ↦ bind (expect .rightParen) fun _ ↦ pure _
    · exact fail _
  · exact fail _

theorem keepsMemo_term : KeepsMemo (Rule.term tokens level) := by
  have hfactor : KeepsMemo (Rule.factor tokens level) := keepsMemo_factor hexpression
  refine bind (accept .minus) fun found ↦ ?_
  split
  · exact bind hfactor fun _ ↦ keepsMemo_chain hfactor _ _
  · exact bind hfactor fun _ ↦ keepsMemo_chain hfactor _ _

theorem keepsMemo_additive : KeepsMemo (Rule.additive tokens level) :=
  bind (keepsMemo_term hexpression) fun _ ↦ keepsMemo_chain (keepsMemo_term hexpression) _ _

theorem keepsMemo_comparison : KeepsMemo (Rule.comparison tokens level) := by
  refine bind (keepsMemo_additive hexpression) fun left ↦ bind get fun cursor ↦ ?_
  split
  · split
    · refine bind skip fun _ ↦ ?_
      split
      · exact bind (keepsMemo_additive hexpression) fun _ ↦ pure _
      · exact throw _
    · exact pure _
  · exact pure _

theorem keepsMemo_trailing (statementError : SyntaxError) :
    KeepsMemo (Rule.trailing tokens level statementError) := by
  intro cursor
  have hfirst := hexpression cursor
  unfold Rule.trailing
  split
  · next hrun =>
    rw [hrun] at hfirst
    split <;> exact hfirst
  · next hrun =>
    rw [hrun] at hfirst
    split <;> exact hfirst
  · next hrun => rwa [hrun] at hfirst

variable (htype : KeepsMemo level.type)

include htype

theorem keepsMemo_statement : KeepsMemo (Rule.statement tokens level) := by
  refine bind get fun cursor ↦ ?_
  split
  · refine bind advance fun token? ↦ ?_
    split
    · exact throw _
    split
    · exact throw _
    refine bind (expect .identifier) fun _ ↦ bind (expect .colon) fun _ ↦ bind htype fun _ ↦ ?_
    exact bind (expect .assignment) fun _ ↦ bind hexpression fun _ ↦
      bind (expect .semicolon) fun _ ↦ pure _
  split
  · exact bind (expect .identifier) fun _ ↦ bind (expect .assignment) fun _ ↦
      bind hexpression fun _ ↦ bind (expect .semicolon) fun _ ↦ pure _
  · refine bind hexpression fun expression ↦ ?_
    split
    · exact bind (accept .semicolon) fun _ ↦ pure _
    · exact bind (expect .semicolon) fun _ ↦ pure _

omit hexpression htype in
theorem keepsMemo_blockResult? (element : Tree) : KeepsMemo (Rule.blockResult? tokens element) := by
  unfold Rule.blockResult?
  split
  · refine bind get fun cursor ↦ ?_
    split
    · split
      · exact pure _
      · exact throw _
    · exact pure none
  · exact pure none

theorem keepsMemo_blockElements (rounds : Nat) :
    KeepsMemo (Rule.blockElements tokens level rounds) := by
  induction rounds with
  | zero => exact pure _
  | succ rounds ih =>
    refine bind get fun start ↦ ?_
    split
    · exact pure _
    · refine bind (speculate (keepsMemo_statement hexpression htype)) fun attempt ↦ ?_
      split
      · exact bind (keepsMemo_trailing hexpression _) fun _ ↦ pure _
      · refine bind (keepsMemo_blockResult? _) fun result? ↦ ?_
        split
        · exact pure _
        · exact bind ih fun _ ↦ pure _

theorem keepsMemo_block : KeepsMemo (Rule.block tokens level) := by
  refine bind (expect .leftCurly) fun _ ↦ ?_
  refine bind (keepsMemo_blockElements hexpression htype _) fun _ ↦ ?_
  exact bind (expect .rightCurly) fun _ ↦ pure _

theorem keepsMemo_elseBranches (rounds : Nat) :
    KeepsMemo (Rule.elseBranches tokens level rounds) := by
  induction rounds with
  | zero => exact pure []
  | succ rounds ih =>
    refine bind get fun start ↦ ?_
    split
    · refine bind skip fun _ ↦ bind skip fun _ ↦ bind hexpression fun _ ↦ ?_
      exact bind (keepsMemo_block hexpression htype) fun _ ↦ bind ih fun _ ↦ pure _
    · exact pure []

theorem keepsMemo_conditional : KeepsMemo (Rule.conditional tokens level) := by
  have hblock : KeepsMemo (Rule.block tokens level) := keepsMemo_block hexpression htype
  have helse : KeepsMemo (Rule.elseBlock tokens level) := by
    refine bind get fun cursor ↦ ?_
    split
    · exact bind skip fun _ ↦ hblock
    · exact pure _
  refine bind (expectKeyword "if") fun _ ↦ bind hexpression fun _ ↦ bind hblock fun _ ↦ ?_
  exact bind (keepsMemo_elseBranches hexpression htype _) fun _ ↦ bind helse fun _ ↦ pure _

theorem keepsMemo_expressionWith : KeepsMemo (Rule.expressionWith tokens level) := by
  refine bind get fun cursor ↦ ?_
  split
  · exact keepsMemo_block hexpression htype
  split
  · exact keepsMemo_conditional hexpression htype
  · exact keepsMemo_comparison hexpression

end

theorem keepsMemo_expressionAfresh (tokens : Array Token) (levels : Nat) :
    KeepsMemo (Rule.expressionAfresh tokens levels) := by
  induction levels with
  | zero => exact fun _ ↦ rfl
  | succ levels ih => exact keepsMemo_expressionWith ih (keepsMemo_typeRule levels)

/-! ### Reading again gives the same -/

section

variable {tokens : Array Token}

/-- A rule that leaves the memo as it was starts afresh when it is run again, and comes to what its
reader comes to both times. -/
theorem replays_of_keepsMemo {rule : Rule Tree} {reader : Reader Tree}
    (hfollows : Follows tokens rule reader) (hkeeps : KeepsMemo rule) : Replays tokens rule := by
  have hagain : ∀ {cursor after later : Cursor}, cursor.Fresh → cursor.index ≤ tokens.size →
      after.memo = cursor.memo → later.index = cursor.index → later.memo = after.memo →
        Agrees tokens later (rule later) (reader (cursor.rest tokens)) := by
    intro cursor after later hfresh hbound hafter hindex hmemo
    have hlater : later.Fresh := fun index hle ↦ by
      rw [hmemo, hafter]
      exact hfresh index (by omega)
    have hrest : later.rest tokens = cursor.rest tokens := by
      rw [Cursor.rest, hindex, Cursor.rest]
    rw [← hrest]
    exact hfollows later hlater (by omega)
  constructor
  · intro cursor after later tree hfresh hbound hrun hindex hmemo
    have hafter : after.memo = cursor.memo := by
      have hkept := hkeeps cursor
      rwa [hrun] at hkept
    have hfirst := hfollows cursor hfresh hbound
    have hsecond := hagain hfresh hbound hafter hindex hmemo
    cases hread : reader (cursor.rest tokens) with
    | error obstacle rest =>
      rw [hread, hrun] at hfirst
      obtain ⟨_, hcontrary, -⟩ := hfirst
      cases hcontrary
    | ok value rest =>
      rw [hread, hrun] at hfirst
      rw [hread] at hsecond
      obtain ⟨_, hok, -, hrest, -, hsize, -⟩ := hfirst
      obtain ⟨last, hlast, -, hlastRest, -, hlastSize, -⟩ := hsecond
      cases hok
      refine ⟨last, hlast, ?_, ?_⟩
      · have hlength := congrArg List.length (hlastRest.trans hrest.symm)
        rw [Cursor.length_rest, Cursor.length_rest] at hlength
        omega
      · have hkept := hkeeps later
        rw [hlast] at hkept
        exact hkept.trans hmemo
  · intro cursor after later error hfresh hbound hrun hindex hmemo
    have hafter : after.memo = cursor.memo := by
      have hkept := hkeeps cursor
      rwa [hrun] at hkept
    have hfirst := hfollows cursor hfresh hbound
    have hsecond := hagain hfresh hbound hafter hindex hmemo
    cases hread : reader (cursor.rest tokens) with
    | ok value rest =>
      rw [hread, hrun] at hfirst
      obtain ⟨_, hcontrary, -⟩ := hfirst
      cases hcontrary
    | error obstacle rest =>
      rw [hread, hrun] at hfirst
      rw [hread] at hsecond
      obtain ⟨_, herror, -⟩ := hfirst
      obtain ⟨last, hlast, -⟩ := hsecond
      injection herror with hfailure
      refine ⟨last, by rw [hlast, hfailure], ?_⟩
      have hkept := hkeeps later
      rw [hlast] at hkept
      exact hkept.trans hmemo

/-- Where a declaration or an assignment starts, reading an expression anew changes nothing. -/
theorem declines_of_keepsMemo {level : Level} (hrule : Rebuffed tokens level.expression) :
    Declines tokens level := by
  intro cursor error _ hfirst hposition
  rcases hrule cursor hfirst with ⟨found, hrun, hfound⟩ | ⟨tree, hrun, hcurly⟩
  · exact ⟨_, trailing_of_outcome (.inl ⟨found, hrun, by omega⟩), fun _ _ ↦ rfl⟩
  · exact ⟨_, trailing_of_outcome (.inr ⟨tree, hrun, hcurly⟩), fun _ _ ↦ rfl⟩

/-- The rules without a memo follow the readers at every number of levels, as those with one do. -/
theorem follows_levelAfresh (levels : Nat) :
    FollowsLevel tokens (Rule.levelAfresh tokens levels) (Reader.level tokens.size levels) := by
  induction levels with
  | zero =>
    have hfollows : Follows tokens (Rule.expressionAfresh tokens 0) Reader.tooDeep :=
      fun cursor ↦ FollowsAt.tooDeep
    exact ⟨follows_type 0, hfollows,
      replays_of_keepsMemo hfollows (keepsMemo_expressionAfresh tokens 0),
      declines_of_keepsMemo rebuffed_tooDeep, 0, sound_level tokens.size 0⟩
  | succ levels ih =>
    have hfollows := follows_expressionWith ih
    exact ⟨follows_type (levels + 1), hfollows,
      replays_of_keepsMemo hfollows (keepsMemo_expressionAfresh tokens (levels + 1)),
      declines_of_keepsMemo (rebuffed_expressionWith _), levels + 1,
      sound_level tokens.size (levels + 1)⟩

end

/-- The memo cannot be seen: with it or without it, a token list is parsed to the same program or
refused with the same failure, which for a syntax error is its cause, its position and the token
there. -/
theorem parse_eq_parseAfresh (tokens : List Token) : parse tokens = parseAfresh tokens := by
  have hafresh : parseAfresh tokens = predict tokens :=
    program_eq_predict tokens (follows_levelAfresh nestingLimit)
  rw [parse_eq_predict, hafresh]

end LetLang
