import LetLang.Proofs.Grammar.Backtracking

/-!
# Blocks read by looking ahead

The rule for blocks tries each element as a statement and moves back when that fails. Two other
rules are put in its place here, with all other rules as they were (`parseUsing`).

The first never moves back (`Rule.blockAhead`). The next two tokens tell a declaration and an
assignment from an expression, and the token after an expression tells what the expression was.

The second moves back as before, but it is on the watch for an error that is found only then
(`Rule.blockGuarded`). When the last expression of a block is looked for after a statement failed,
it could report an error of its own, further on than that of the statement. In place of such an
error, and of every other failure but the statement's own, the rule raises an alarm.

Any rule for blocks that follows the reader for blocks leaves the outcome of a parse as it is
(`parse_eq_parseUsing_of_follows`), and both rules do. As this holds whatever the alarm is, there is
never any.
-/

set_option autoImplicit false

namespace LetLang

/-! ### Another rule for blocks -/

/-- The program that a list of tokens stands for, or why there is none, with the given rule for
blocks in place of the one of the grammar. -/
def parseUsing (block : Array Token → Level → Rule Tree) (tokens : List Token) :
    Except ParseFailure Tree :=
  let level := Rule.levelUsing tokens.toArray (block tokens.toArray) nestingLimit
  match Rule.program tokens.toArray level {} with
  | .ok tree _ => .ok tree
  | .error failure _ => .error failure

/-- A rule for blocks that follows the reader for blocks cannot be told from that of the grammar. -/
theorem parse_eq_parseUsing_of_follows {block : Array Token → Level → Rule Tree}
    (hblock : ∀ {tokens : Array Token} {level : Level} {level' : ReaderLevel},
      FollowsLevel tokens level level' →
        Follows tokens (block tokens level) (Reader.block tokens.size level'))
    (tokens : List Token) : parse tokens = parseUsing block tokens := by
  have husing : parseUsing block tokens = predict tokens :=
    program_eq_predict tokens (follows_levelUsing hblock nestingLimit)
  rw [parse_eq_predict, husing]

/-! ### Looking ahead -/

namespace Rule

section

variable (tokens : Array Token) (level : Level)

/-- Puts a statement before the elements of a block. -/
def prepend (first : Tree) (more : Rule (List Tree × Tree)) : Rule (List Tree × Tree) := do
  let (rest, result) ← more
  return (first :: rest, result)

/-- What an expression in a block turns out to be, given the rule for the elements after it. Before
a semicolon it is a statement, and before the closing brace the result of the block. Before anything
else a braced one is a statement too, and any other lacks its semicolon. -/
def afterExpression (expression : Tree) (more : Rule (List Tree × Tree)) :
    Rule (List Tree × Tree) := do
  if ← accept tokens .semicolon then prepend (.statement expression) more
  else if (← get).nextIs tokens .rightCurly then closeWith tokens expression
  else if expression.isBraced then prepend (.statement expression) more
  else fail tokens (.token .semicolon)

/-- The elements of a block up to and with the closing brace, read without moving back. -/
def elementsAhead : Nat → Rule (List Tree × Tree)
  | 0 => closeWith tokens .absent
  | rounds + 1 => do
    let cursor ← get
    if cursor.nextIs tokens .rightCurly || cursor.atEnd tokens then closeWith tokens .absent
    else if cursor.nextIsKeyword tokens "let" || cursor.nextIsKeyword tokens "mut" then
      let first ← declaration tokens level
      prepend first (elementsAhead rounds)
    else if cursor.nextIs tokens .identifier && cursor.secondIs tokens .assignment then
      let first ← assignment tokens level
      prepend first (elementsAhead rounds)
    else
      let expression ← level.expression
      afterExpression tokens expression (elementsAhead rounds)

/-- A block, read without moving back. -/
def blockAhead : Rule Tree := do
  let _ ← expect tokens .leftCurly
  let (statements, result) ← elementsAhead tokens level tokens.size
  return .block statements result

end

/-! ### On the watch -/

section

variable (alarm : ParseFailure) (tokens : Array Token) (level : Level)

/-- Raises the alarm in place of every failure of the rule but the given error. -/
def guarded {α : Type} (error : SyntaxError) (rule : Rule α) : Rule α := fun cursor =>
  match rule cursor with
  | .ok value after => .ok value after
  | .error failure after => .error (if failure = .syntaxError error then failure else alarm) after

/-- The statements of a block and the expression that ends them, as `blockElements` reads them, with
an alarm where that expression fails otherwise than the statement tried before it. -/
def elementsGuarded : Nat → Rule (List Tree × Tree)
  | 0 => return ([], .absent)
  | rounds + 1 => do
    let start ← get
    if start.nextIs tokens .rightCurly || start.atEnd tokens then return ([], .absent)
    else
      match ← speculate (statement tokens level) with
      | .error error => return ([], ← guarded alarm error (trailing tokens level error))
      | .ok element =>
        match ← blockResult? tokens element with
        | some result => return ([], result)
        | none =>
          let (rest, result) ← elementsGuarded rounds
          return (element :: rest, result)

/-- A block, as `block` reads it, with an alarm where its last expression fails otherwise than the
statement tried before it. -/
def blockGuarded : Rule Tree := do
  let _ ← expect tokens .leftCurly
  let (statements, result) ← elementsGuarded alarm tokens level tokens.size
  let _ ← expect tokens .rightCurly
  return .block statements result

end

end Rule

/-! ### Looking ahead follows -/

section

variable {tokens : Array Token} {more : Rule (List Tree × Tree)} {more' : Reader (List Tree × Tree)}
  (hmore : Follows tokens more more')

include hmore

theorem follows_prepend (first : Tree) :
    Follows tokens (Rule.prepend first more) (Reader.prepend first more') :=
  fun cursor ↦ FollowsAt.bind (hmore cursor) fun _ _ _ _ ↦ FollowsAt.pure _

theorem follows_afterExpression (expression : Tree) :
    Follows tokens (Rule.afterExpression tokens expression more)
      (Reader.afterExpression expression more') := by
  intro cursor
  have hstatement := follows_prepend hmore (.statement expression)
  cases hsemicolon : Reader.nextIs .semicolon (cursor.rest tokens) with
  | true =>
    obtain ⟨semicolon, others, hrest, hkind⟩ := Reader.exists_of_nextIs hsemicolon
    have hcurly : Reader.nextIs .rightCurly (cursor.rest tokens) = false := by simp [hrest, hkind]
    have hfollows : FollowsAt tokens cursor
        (Rule.skip >>= fun _ ↦ Rule.prepend (.statement expression) more)
        (Reader.skip >>= fun _ ↦ Reader.prepend (.statement expression) more') :=
      FollowsAt.bind (FollowsAt.skip hrest) fun _ after _ _ ↦ hstatement after
    refine FollowsAt.congr hfollows (Run.bind_of_ok (Rule.accept_of_rest hrest hkind)) ?_
    rw [Reader.afterExpression_of_not hcurly, hrest, Run.bind_of_ok Reader.skip_cons]
    split
    · exact Run.bind_of_ok (Reader.accept_cons hkind)
    · exact Run.bind_of_ok (Reader.expect_cons hkind)
  | false =>
    have hrule : Rule.afterExpression tokens expression more cursor =
        (if cursor.nextIs tokens .rightCurly then Rule.closeWith tokens expression
        else if expression.isBraced then Rule.prepend (.statement expression) more
        else Rule.fail tokens (.token .semicolon)) cursor :=
      Run.bind_of_ok (Rule.accept_of_not hsemicolon)
    refine FollowsAt.congr ?_ hrule rfl
    rw [Cursor.nextIs_eq]
    cases hcurly : Reader.nextIs .rightCurly (cursor.rest tokens) with
    | true =>
      exact FollowsAt.congr (follows_closeWith expression cursor) rfl
        (Reader.afterExpression_of_rightCurly hcurly)
    | false =>
      cases hbraced : expression.isBraced with
      | true =>
        refine FollowsAt.congr (hstatement cursor) rfl ?_
        rw [Reader.afterExpression_of_not hcurly, if_pos hbraced]
        exact Run.bind_of_ok (Reader.accept_of_not hsemicolon)
      | false =>
        refine FollowsAt.congr (FollowsAt.fail (.token .semicolon)) rfl ?_
        rw [Reader.afterExpression_of_not hcurly, if_neg (by simp [hbraced])]
        exact Run.bind_of_error (Reader.expect_of_not hsemicolon)

end

section

variable {tokens : Array Token} {level : Level} {level' : ReaderLevel}
  (hlevel : FollowsLevel tokens level level')

include hlevel

theorem follows_elementsAhead (rounds : Nat) :
    Follows tokens (Rule.elementsAhead tokens level rounds) (Reader.elements level' rounds) := by
  induction rounds with
  | zero => exact follows_closeWith .absent
  | succ rounds ih =>
    intro cursor
    refine FollowsAt.get (FollowsAt.congr ?_ rfl Run.get_bind)
    rw [Cursor.nextIs_eq, Cursor.atEnd_eq, startsDeclaration_eq, startsAssignment_eq]
    split
    · exact follows_closeWith .absent cursor
    · refine FollowsAt.congr ?_ rfl Run.get_bind
      cases hkeyword : Reader.declKeyword? (cursor.rest tokens) with
      | some keyword =>
        exact FollowsAt.bind (followsAt_declaration hlevel.type hlevel.expression hkeyword)
          fun first after _ _ ↦ follows_prepend ih first after
      | none =>
        rw [Option.isSome_none, if_neg Bool.false_ne_true]
        refine FollowsAt.congr ?_ rfl Run.get_bind
        split
        · exact FollowsAt.bind (follows_assignment hlevel.expression cursor)
            fun first after _ _ ↦ follows_prepend ih first after
        · exact FollowsAt.bind (hlevel.expression cursor)
            fun expression after _ _ ↦ follows_afterExpression ih expression after

theorem follows_blockAhead :
    Follows tokens (Rule.blockAhead tokens level) (Reader.block tokens.size level') := by
  intro cursor
  refine FollowsAt.bind (follows_expect .leftCurly cursor) fun _ after _ _ ↦ ?_
  exact FollowsAt.bind (follows_elementsAhead hlevel tokens.size after) fun _ _ _ _ ↦
    FollowsAt.pure _

end

/-! ### There is no alarm -/

theorem Rule.blockResult?_stays {tokens : Array Token} {element : Tree} {cursor after : Cursor}
    {found : Option Tree} (hrun : Rule.blockResult? tokens element cursor = .ok found after) :
    after = cursor := by
  unfold Rule.blockResult? at hrun
  split at hrun
  · rw [Run.get_bind] at hrun
    split at hrun
    · cases hprevious : cursor.previous? tokens with
      | none =>
        rw [hprevious] at hrun
        cases hrun
      | some token =>
        rw [hprevious] at hrun
        cases hrun
        rfl
    · cases hrun
      rfl
  · cases hrun
    rfl

section

variable {tokens : Array Token} {level : Level} {level' : ReaderLevel}
  (hlevel : FollowsLevel tokens level level') {cursor : Cursor} (hfresh : cursor.Fresh)
  (hindex : cursor.index ≤ tokens.size)

include hlevel hfresh hindex

/-- An expression that lacks its semicolon is found again, and one that failed fails again. -/
theorem trailing_of_expressionStatement {error : SyntaxError} {after back : Cursor}
    (hrun : Rule.expressionStatement tokens level cursor = .error (.syntaxError error) after)
    (hbackIndex : back.index = cursor.index) (hbackMemo : back.memo = after.memo) :
    ∃ last, (∃ tree, Rule.trailing tokens level error back = .ok tree last) ∨
      Rule.trailing tokens level error back = .error (.syntaxError error) last := by
  rcases error_of_expressionStatement hrun with hstop | ⟨⟨expression, hfound⟩, -⟩
  · obtain ⟨last, hlast, -⟩ := hlevel.replays.error hfresh hindex hstop hbackIndex hbackMemo
    exact ⟨last, .inr (trailing_of_error hlast)⟩
  · obtain ⟨last, hlast, -⟩ := hlevel.replays.ok hfresh hindex hfound hbackIndex hbackMemo
    refine ⟨last, ?_⟩
    rw [Rule.trailing, hlast]
    simp only
    split
    · exact .inl ⟨expression, rfl⟩
    · exact .inr rfl

/-- After a statement that failed, the last expression of a block is found, or the error of the
statement stands. -/
theorem trailing_of_statement {error : SyntaxError} {after back : Cursor}
    (hrun : Rule.statement tokens level cursor = .error (.syntaxError error) after)
    (hbackIndex : back.index = cursor.index) (hbackMemo : back.memo = after.memo) :
    ∃ last, (∃ tree, Rule.trailing tokens level error back = .ok tree last) ∨
      Rule.trailing tokens level error back = .error (.syntaxError error) last := by
  cases hkeyword : Reader.declKeyword? (cursor.rest tokens) with
  | some keyword =>
    obtain ⟨token, others, hrest, -⟩ := Reader.exists_of_declKeyword? hkeyword
    obtain ⟨last, hlast, -⟩ := trailing_of_ended hlevel
      (follows_declarationBody hlevel.type hlevel.expression keyword)
      (statement_of_declKeyword? hkeyword) (.inl (by rw [hkeyword]; rfl)) hfresh
      (Cursor.index_lt tokens hrest) hrun hbackIndex hbackMemo
    exact ⟨last, .inr hlast⟩
  | none =>
    cases hstarts : Reader.startsAssignment (cursor.rest tokens) with
    | true =>
      have hnext := (Bool.and_eq_true_iff.mp hstarts).1
      obtain ⟨token, others, hrest, -⟩ := Reader.exists_of_nextIs hnext
      obtain ⟨last, hlast, -⟩ := trailing_of_ended hlevel
        (follows_assignmentBody hlevel.expression token.lexeme)
        (statement_of_startsAssignment hkeyword hrest hstarts) (.inr hstarts) hfresh
        (Cursor.index_lt tokens hrest) hrun hbackIndex hbackMemo
      exact ⟨last, .inr hlast⟩
    | false =>
      rw [statement_of_expression hkeyword hstarts] at hrun
      exact trailing_of_expressionStatement hlevel hfresh hindex hrun hbackIndex hbackMemo

theorem guarded_trailing (alarm : ParseFailure) {error : SyntaxError} {after back : Cursor}
    (hrun : Rule.statement tokens level cursor = .error (.syntaxError error) after)
    (hbackIndex : back.index = cursor.index) (hbackMemo : back.memo = after.memo) :
    Rule.guarded alarm error (Rule.trailing tokens level error) back =
      Rule.trailing tokens level error back := by
  obtain ⟨last, ⟨tree, hlast⟩ | hlast⟩ :=
    trailing_of_statement hlevel hfresh hindex hrun hbackIndex hbackMemo
  · rw [Rule.guarded, hlast]
  · rw [Rule.guarded, hlast]
    simp only [if_true]

end

section

variable {tokens : Array Token} {level : Level} {level' : ReaderLevel}
  (hlevel : FollowsLevel tokens level level') (alarm : ParseFailure)

include hlevel

theorem elementsGuarded_eq (rounds : Nat) {cursor : Cursor} (hfresh : cursor.Fresh)
    (hindex : cursor.index ≤ tokens.size) :
    Rule.elementsGuarded alarm tokens level rounds cursor =
      Rule.blockElements tokens level rounds cursor := by
  induction rounds generalizing cursor with
  | zero => rfl
  | succ rounds ih =>
    rw [Rule.elementsGuarded, Rule.blockElements, Run.get_bind, Run.get_bind]
    split
    · rfl
    cases hrun : Rule.statement tokens level cursor with
    | ok element after =>
      rw [Run.bind_of_ok (Rule.speculate_of_ok hrun), Run.bind_of_ok (Rule.speculate_of_ok hrun)]
      refine Run.bind_congr_next fun found now hfound ↦ ?_
      cases Rule.blockResult?_stays hfound
      cases found with
      | some result => rfl
      | none =>
        -- What follows the statement is fresh, because the rule follows its reader.
        have hagrees := follows_statement hlevel.type hlevel.expression cursor hfresh hindex
        rw [hrun] at hagrees
        obtain ⟨hnowFresh, hnowIndex⟩ := hagrees.of_ok
        exact Run.bind_congr (ih hnowFresh hnowIndex)
    | error failure after =>
      cases failure with
      | syntaxError error =>
        obtain ⟨back, hbackIndex, hbackMemo, hattempt⟩ := Rule.speculate_of_syntaxError hrun
        rw [Run.bind_of_ok hattempt, Run.bind_of_ok hattempt]
        exact Run.bind_congr
          (guarded_trailing hlevel hfresh hindex alarm hrun hbackIndex hbackMemo)
      | _ =>
        rw [Run.bind_of_error (by rw [Rule.speculate, hrun]),
          Run.bind_of_error (by rw [Rule.speculate, hrun])]

theorem follows_blockGuarded :
    Follows tokens (Rule.blockGuarded alarm tokens level) (Reader.block tokens.size level') := by
  intro cursor hfresh hindex
  have hblock : Rule.blockGuarded alarm tokens level cursor = Rule.block tokens level cursor := by
    refine Run.bind_congr_next fun _ after hrun ↦ ?_
    have hagrees := follows_expect .leftCurly cursor hfresh hindex
    rw [hrun] at hagrees
    obtain ⟨hafterFresh, hafterIndex⟩ := hagrees.of_ok
    exact Run.bind_congr (elementsGuarded_eq hlevel alarm tokens.size hafterFresh hafterIndex)
  rw [hblock]
  exact follows_block hlevel cursor hfresh hindex

end

/-- Moving back in a block cannot be told from looking ahead: a token list is parsed to the same
program, or refused with the same failure, which for a syntax error is its cause, its position and
the token there. Nor does moving back ever bring up an error other than that of the statement it
started from, for no alarm that is raised in its place is ever heard. -/
theorem parse_eq_parseUsing (tokens : List Token) :
    parse tokens = parseUsing Rule.blockAhead tokens ∧
      ∀ alarm, parse tokens = parseUsing (Rule.blockGuarded alarm) tokens := by
  refine ⟨?_, fun alarm ↦ ?_⟩
  · exact parse_eq_parseUsing_of_follows (fun hlevel ↦ follows_blockAhead hlevel) tokens
  · exact parse_eq_parseUsing_of_follows (fun hlevel ↦ follows_blockGuarded hlevel alarm) tokens

end LetLang
