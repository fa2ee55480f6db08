import LetLang.Proofs.Grammar.Following
import LetLang.Proofs.Grammar.Soundness

/-!
# Moving back and remembering cannot be seen

The rules of the grammar try an element of a block as a statement, move back when that fails, and
remember expressions by the index where they start. Here they are compared with the readers, which
do neither: `parse` and `predict` come to the same tree or the same failure on every token list
(`parse_eq_predict`).

A rule that starts afresh finds nothing remembered, so moving back inside a block is the only time
that anything remembered is used. There the element was an expression whose outcome, good or bad, is
repeated (`Replays`), or it was a declaration or an assignment, whose first tokens are no expression
before a closing brace (`Declines`). Hence a failure inside a block is final. A level of rules that
follows a level of readers (`FollowsLevel`) makes the level above it follow too, and for that the rule
for blocks may be any that follows the reader for blocks (`follows_levelUsing`).
-/

set_option autoImplicit false

namespace LetLang

/-- Once run at a fresh cursor, the rule has the same outcome when it is run there again with the
memo that it left. -/
structure Replays (tokens : Array Token) (rule : Rule Tree) : Prop where
  ok : ∀ {cursor after later : Cursor} {tree : Tree}, cursor.Fresh → cursor.index ≤ tokens.size →
    rule cursor = .ok tree after → later.index = cursor.index → later.memo = after.memo →
      ∃ last : Cursor, rule later = .ok tree last ∧ last.index = after.index ∧
        last.memo = after.memo
  error : ∀ {cursor after later : Cursor} {error : SyntaxError}, cursor.Fresh →
    cursor.index ≤ tokens.size → rule cursor = .error (.syntaxError error) after →
      later.index = cursor.index → later.memo = after.memo →
        ∃ last : Cursor, rule later = .error (.syntaxError error) last ∧ last.memo = after.memo

/-- Where a declaration or an assignment starts and nothing is remembered, the error of a statement
stands, because no expression before a closing brace starts with the same tokens. -/
def Declines (tokens : Array Token) (level : Level) : Prop :=
  ∀ (cursor : Cursor) (error : SyntaxError), cursor.memo[cursor.index]? = none →
    (Reader.declKeyword? (cursor.rest tokens)).isSome = true ∨
        Reader.startsAssignment (cursor.rest tokens) = true →
      (cursor.index : Int) ≤ error.position →
        ∃ after : Cursor, Rule.trailing tokens level error cursor = .error (.syntaxError error) after ∧
          cursor.Kept after

/-- A level of rules that follows a level of readers. -/
structure FollowsLevel (tokens : Array Token) (level : Level) (level' : ReaderLevel) : Prop where
  type : Follows tokens level.type level'.type
  expression : Follows tokens level.expression level'.expression
  replays : Replays tokens level.expression
  declines : Declines tokens level
  sound : ∃ levels, SoundLevel level' levels

/-! ### The elements of a block -/

namespace Rule

section

variable {α : Type} {rule : Rule α} {cursor after : Cursor}

theorem speculate_of_ok {value : α} (hrun : rule cursor = .ok value after) :
    speculate rule cursor = .ok (.ok value) after := by
  rw [speculate, hrun]

/-- After a syntax error the cursor is back, with the memo that the attempt left. -/
theorem speculate_of_syntaxError {error : SyntaxError}
    (hrun : rule cursor = .error (.syntaxError error) after) :
    ∃ back : Cursor, back.index = cursor.index ∧ back.memo = after.memo ∧
      speculate rule cursor = .ok (.error error) back := by
  let event := Event.rewound after.index cursor.index error.diagnostic.message
  refine ⟨{ after with index := cursor.index, trace := event :: after.trace }, rfl, rfl, ?_⟩
  rw [speculate, hrun]

end

variable (tokens : Array Token) (level : Level)

/-- The elements of a block up to and with the closing brace. -/
def closed (rounds : Nat) : Rule (List Tree × Tree) := do
  let elements ← blockElements tokens level rounds
  let _ ← expect tokens .rightCurly
  return elements

theorem block_eq : block tokens level = (do
    let _ ← expect tokens .leftCurly
    let (statements, result) ← closed tokens level tokens.size
    return .block statements result) := by
  simp [block, closed]

/-- The closing brace after the elements of a block whose last one was a statement, or after the
given result. -/
def closeWith (result : Tree) : Rule (List Tree × Tree) := do
  let _ ← expect tokens .rightCurly
  return ([], result)

/-- What follows the attempt to read a statement in a block. -/
def afterAttempt (rounds : Nat) : Except SyntaxError Tree → Rule (List Tree × Tree)
  | .error error => do closeWith tokens (← trailing tokens level error)
  | .ok element => do
    match ← blockResult? tokens element with
    | some result => closeWith tokens result
    | none =>
      let (rest, result) ← closed tokens level rounds
      return (element :: rest, result)

variable {tokens} {level} {rounds : Nat} {cursor after : Cursor}

theorem closed_of_end (hend : (cursor.nextIs tokens .rightCurly || cursor.atEnd tokens) = true) :
    closed tokens level (rounds + 1) cursor = closeWith tokens .absent cursor := by
  rw [closed, blockElements, bind_assoc, Run.get_bind, if_pos hend, pure_bind, closeWith]

theorem closed_of_attempt (hgo : (cursor.nextIs tokens .rightCurly || cursor.atEnd tokens) = false) :
    closed tokens level (rounds + 1) cursor =
      (speculate (statement tokens level) >>= afterAttempt tokens level rounds) cursor := by
  rw [closed, blockElements, bind_assoc, Run.get_bind, if_neg (by simp [hgo]), bind_assoc]
  refine congrFun (bind_congr fun attempt ↦ ?_) cursor
  cases attempt with
  | error error => simp [afterAttempt, closeWith]
  | ok element =>
    rw [afterAttempt, bind_assoc]
    refine bind_congr fun found ↦ ?_
    cases found with
    | some result => simp [closeWith]
    | none => simp [closed]

section

variable (hgo : (cursor.nextIs tokens .rightCurly || cursor.atEnd tokens) = false)

include hgo

theorem closed_of_element {element : Tree}
    (hstatement : statement tokens level cursor = .ok element after)
    (hresult : blockResult? tokens element after = .ok none after) :
    closed tokens level (rounds + 1) cursor = (do
      let (rest, result) ← closed tokens level rounds
      return (element :: rest, result)) after := by
  rw [closed_of_attempt hgo, Run.bind_of_ok (speculate_of_ok hstatement), afterAttempt,
    Run.bind_of_ok hresult]

theorem closed_of_result {element result : Tree}
    (hstatement : statement tokens level cursor = .ok element after)
    (hresult : blockResult? tokens element after = .ok (some result) after) :
    closed tokens level (rounds + 1) cursor = closeWith tokens result after := by
  rw [closed_of_attempt hgo, Run.bind_of_ok (speculate_of_ok hstatement), afterAttempt,
    Run.bind_of_ok hresult]

theorem closed_of_syntaxError (rounds : Nat) {error : SyntaxError}
    (hstatement : statement tokens level cursor = .error (.syntaxError error) after) :
    ∃ back : Cursor, back.index = cursor.index ∧ back.memo = after.memo ∧
      closed tokens level (rounds + 1) cursor =
        (trailing tokens level error >>= closeWith tokens) back := by
  obtain ⟨back, hindex, hmemo, hattempt⟩ := speculate_of_syntaxError hstatement
  refine ⟨back, hindex, hmemo, ?_⟩
  rw [closed_of_attempt hgo, Run.bind_of_ok hattempt, afterAttempt]

theorem closed_of_unknownDataType {lexeme : Lexeme}
    (hstatement : statement tokens level cursor = .error (.unknownDataType lexeme) after) :
    closed tokens level (rounds + 1) cursor = .error (.unknownDataType lexeme) after := by
  have hattempt : speculate (statement tokens level) cursor =
      .error (.unknownDataType lexeme) after := by
    rw [speculate, hstatement]
  rw [closed_of_attempt hgo, Run.bind_of_error hattempt]

end

end Rule

/-! ### Braced expressions end with a brace -/

/-- The last token is a closing brace. -/
def EndsBraced (tokens : List Token) : Prop :=
  ∃ front right, tokens = front ++ [right] ∧ right.kind = .rightCurly

theorem EndsBraced.append {tokens : List Token} (h : EndsBraced tokens) (first : List Token) :
    EndsBraced (first ++ tokens) := by
  obtain ⟨front, right, rfl, hright⟩ := h
  exact ⟨first ++ front, right, by rw [List.append_assoc], hright⟩

theorem IsBlock.endsBraced {tree : Tree} {tokens : List Token} (h : IsBlock tree tokens) :
    EndsBraced tokens := by
  cases h with
  | @empty left right _ hright => exact ⟨[left], right, rfl, hright⟩
  | @ended left right _ _ tokens lastTokens _ _ _ hright =>
    exact ⟨left :: (tokens ++ lastTokens), right, by simp, hright⟩
  | @result left right _ _ tokens resultTokens _ _ _ hright =>
    exact ⟨left :: (tokens ++ resultTokens), right, by simp, hright⟩

theorem AreBranches.endsBraced {trees : List Tree} {tokens front : List Token}
    (h : AreBranches trees tokens) (hfront : EndsBraced front) : EndsBraced (front ++ tokens) := by
  induction h using AreBranches.induct generalizing front with
  | nil => simpa using hfront
  | @cons first second _ _ _ condition _ _ _ _ _ hbody _ ih =>
    simpa using (ih hbody.endsBraced).append (front ++ first :: second :: condition)

theorem IsConditional.endsBraced {tree : Tree} {tokens : List Token}
    (h : IsConditional tree tokens) : EndsBraced tokens := by
  cases h with
  | @branching word _ _ _ _ conditionTokens _ _ _ _ _ hbody hbranches hotherwise =>
    have hfront := hbranches.endsBraced hbody.endsBraced
    cases hotherwise with
    | absent => simpa using hfront.append (word :: conditionTokens)
    | @block last _ _ _ hlast =>
      simpa using hlast.endsBraced.append (word :: (conditionTokens ++ (_ ++ (_ ++ [last]))))

theorem IsExpression.endsBraced {tree : Tree} {tokens : List Token} (h : IsExpression tree tokens)
    (hbraced : tree.isBraced = true) : EndsBraced tokens := by
  cases h with
  | block hblock => exact hblock.endsBraced
  | conditional hconditional => exact hconditional.endsBraced
  | additive hadditive =>
    rw [Tree.isBraced_of_isAdditive hadditive.tiered.1] at hbraced
    cases hbraced
  | comparison => cases hbraced

/-- The token before the cursor is the last one taken on the way there. -/
theorem Cursor.previous?_eq {tokens : Array Token} {cursor after : Cursor} {taken : List Token}
    {last : Token} (hrest : cursor.rest tokens = taken ++ [last] ++ after.rest tokens)
    (hindex : after.index ≤ tokens.size) : after.previous? tokens = some last := by
  have hlength := congrArg List.length hrest
  simp only [List.length_append, Cursor.length_rest, List.length_cons, List.length_nil] at hlength
  have hget := congrArg (·[taken.length]?) hrest
  simp only [Cursor.rest, List.getElem?_drop, Array.getElem?_toList] at hget
  rw [Cursor.previous?, if_neg (by omega), show after.index - 1 = cursor.index + taken.length by omega,
    hget]
  simp

/-! ### Blocks follow -/

section

variable {tokens : Array Token} {level : Level} {level' : ReaderLevel} {cursor : Cursor}

theorem declarationBody_blockResult? {input rest : List Token} {keyword : DeclKeyword} {tree : Tree}
    (hread : Reader.declarationBody level' keyword input = .ok tree rest) (now : Cursor) :
    Rule.blockResult? tokens tree now = .ok none now := by
  obtain ⟨_, _, _, hread⟩ := Run.exists_of_bind_eq_ok hread
  obtain ⟨_, _, _, hread⟩ := Run.exists_of_bind_eq_ok hread
  obtain ⟨_, _, _, hread⟩ := Run.exists_of_bind_eq_ok hread
  obtain ⟨_, _, _, hread⟩ := Run.exists_of_bind_eq_ok hread
  obtain ⟨_, _, _, hread⟩ := Run.exists_of_bind_eq_ok hread
  obtain ⟨_, _, _, hread⟩ := Run.exists_of_bind_eq_ok hread
  cases hread
  rfl

theorem assignmentBody_blockResult? {input rest : List Token} {name : Lexeme} {tree : Tree}
    (hread : Reader.assignmentBody level' name input = .ok tree rest) (now : Cursor) :
    Rule.blockResult? tokens tree now = .ok none now := by
  obtain ⟨_, _, _, hread⟩ := Run.exists_of_bind_eq_ok hread
  obtain ⟨_, _, _, hread⟩ := Run.exists_of_bind_eq_ok hread
  obtain ⟨_, _, _, hread⟩ := Run.exists_of_bind_eq_ok hread
  cases hread
  rfl

theorem follows_closeWith (result : Tree) : Follows tokens (Rule.closeWith tokens result)
    (do let _ ← Reader.expect .rightCurly; return ([], result)) := by
  intro cursor
  exact FollowsAt.bind (follows_expect .rightCurly cursor) fun _ _ _ _ ↦ FollowsAt.pure _

/-- An expression that fails again where it failed leaves the error of the statement in place. -/
theorem trailing_of_error {error : SyntaxError} {after : Cursor}
    (hrun : level.expression cursor = .error (.syntaxError error) after) :
    Rule.trailing tokens level error cursor = .error (.syntaxError error) after := by
  rw [Rule.trailing, hrun]
  simp

/-- After a declaration or an assignment that failed, its error stands. -/
theorem trailing_of_ended (hlevel : FollowsLevel tokens level level') {body : Rule Tree}
    {body' : Reader Tree} (hbody : Follows tokens body body')
    (hstatement : Rule.statement tokens level cursor = body { cursor with index := cursor.index + 1 })
    (hstarts : (Reader.declKeyword? (cursor.rest tokens)).isSome = true ∨
      Reader.startsAssignment (cursor.rest tokens) = true)
    (hfresh : cursor.Fresh) (hindex : cursor.index < tokens.size) {error : SyntaxError}
    {after back : Cursor}
    (hrun : Rule.statement tokens level cursor = .error (.syntaxError error) after)
    (hbackIndex : back.index = cursor.index) (hbackMemo : back.memo = after.memo) :
    ∃ last : Cursor, Rule.trailing tokens level error back = .error (.syntaxError error) last ∧
      cursor.Kept last := by
  have hagrees := hbody { cursor with index := cursor.index + 1 } hfresh.succ hindex
  rw [← hstatement, hrun] at hagrees
  obtain ⟨hposition, hafter⟩ := hagrees.of_syntaxError hindex
  obtain ⟨hkept, hnone⟩ := Cursor.Kept.of_succ hfresh hafter
  have hbackRest : back.rest tokens = cursor.rest tokens := by
    rw [Cursor.rest, hbackIndex, Cursor.rest]
  obtain ⟨last, htrailing, hlast⟩ := hlevel.declines back error
    (by rw [hbackIndex, hbackMemo, hnone]) (by rw [hbackRest]; exact hstarts)
    (by simp only at hposition; omega)
  refine ⟨last, htrailing, fun index hlt ↦ ?_⟩
  rw [hlast index (by omega), hbackMemo, hkept index hlt]

variable {rounds : Nat}
  (hmore : Follows tokens (Rule.closed tokens level rounds) (Reader.elements level' rounds))
  (hgo : (cursor.nextIs tokens .rightCurly || cursor.atEnd tokens) = false)

include hmore hgo

theorem agrees_element {after : Cursor} {element : Tree}
    (hstatement : Rule.statement tokens level cursor = .ok element after)
    (hresult : Rule.blockResult? tokens element after = .ok none after) (hfresh : after.Fresh)
    (hindex : after.index ≤ tokens.size) :
    Agrees tokens after (Rule.closed tokens level (rounds + 1) cursor)
      (Reader.prepend element (Reader.elements level' rounds) (after.rest tokens)) := by
  rw [Rule.closed_of_element hgo hstatement hresult]
  exact FollowsAt.bind (hmore after) (fun _ _ _ _ ↦ FollowsAt.pure _) hfresh hindex

/-- An expression before a semicolon is a statement. -/
theorem agrees_ended {expression : Tree} {after : Cursor} {semicolon : Token} {others : List Token}
    (hrest : after.rest tokens = semicolon :: others) (hkind : semicolon.kind = .semicolon)
    (hstatement : Rule.statement tokens level cursor =
      .ok (.statement expression) { after with index := after.index + 1 }) (hfresh : after.Fresh) :
    Agrees tokens after (Rule.closed tokens level (rounds + 1) cursor)
      (Reader.prepend (.statement expression) (Reader.elements level' rounds) others) := by
  have hnext := Cursor.rest_succ tokens hrest { after with index := after.index + 1 } rfl
  have hindex := Cursor.index_lt tokens hrest
  have hprevious : Cursor.previous? tokens { after with index := after.index + 1 } = some semicolon := by
    have hlast : after.rest tokens = [] ++ [semicolon] ++
        Cursor.rest tokens { after with index := after.index + 1 } := by
      rw [hnext, hrest]
      rfl
    exact Cursor.previous?_eq hlast hindex
  have hresult : Rule.blockResult? tokens (.statement expression) { after with index := after.index + 1 } =
      .ok none { after with index := after.index + 1 } := by
    rw [Rule.blockResult?, Run.get_bind, hprevious]
    split
    · simp only [hkind, beq_self_eq_true, if_true]
      rfl
    · rfl
  have hagrees := agrees_element hmore hgo hstatement hresult
    (fun index hle ↦ hfresh index (Nat.le_of_succ_le hle)) hindex
  rw [hnext] at hagrees
  exact hagrees.of_later (Nat.le_succ _) fun _ _ ↦ rfl

variable (hlevel : FollowsLevel tokens level level')

include hlevel

/-- An element that starts like a declaration or an assignment is one, or the block fails with its
error. -/
theorem follows_ended {body : Rule Tree} {body' : Reader Tree} {token : Token} {others : List Token}
    (hrest : cursor.rest tokens = token :: others)
    (hstatement : Rule.statement tokens level cursor = body { cursor with index := cursor.index + 1 })
    (hbody : Follows tokens body body')
    (hresult : ∀ tree rest, body' others = .ok tree rest → ∀ now,
      Rule.blockResult? tokens tree now = .ok none now)
    (hstarts : (Reader.declKeyword? (cursor.rest tokens)).isSome = true ∨
      Reader.startsAssignment (cursor.rest tokens) = true) :
    FollowsAt tokens cursor (Rule.closed tokens level (rounds + 1)) (do
      Reader.skip
      let first ← body'
      Reader.prepend first (Reader.elements level' rounds)) := by
  intro hfresh hindex
  have hlt := Cursor.index_lt tokens hrest
  have hrun := hbody { cursor with index := cursor.index + 1 } hfresh.succ hlt
  rw [← hstatement, Cursor.rest_succ tokens hrest _ rfl] at hrun
  rw [hrest, Run.bind_of_ok Reader.skip_cons]
  cases hread : body' others with
  | ok first rest =>
    rw [hread] at hrun
    obtain ⟨after, hrun, hafterFresh, rfl, hforward, hafterIndex, hkept⟩ := hrun
    rw [Run.bind_of_ok hread]
    exact (agrees_element hmore hgo hrun (hresult first _ hread after)
      hafterFresh hafterIndex).of_later (Nat.le_of_succ_le hforward) (hkept.of_succ hfresh).1
  | error obstacle rest =>
    rw [hread] at hrun
    obtain ⟨after, hrun, hlength, hkept⟩ := hrun
    have hless : rest.length ≤ (cursor.rest tokens).length := by
      simp only [Cursor.length_rest] at hlength ⊢
      omega
    rw [Run.bind_of_error hread]
    cases obstacle with
    | unknownDataType lexeme =>
      rw [Rule.closed_of_unknownDataType hgo hrun]
      exact ⟨after, rfl, hless, (hkept.of_succ hfresh).1⟩
    | misfit cause =>
      obtain ⟨back, hbackIndex, hbackMemo, hclosed⟩ := Rule.closed_of_syntaxError hgo rounds hrun
      obtain ⟨last, htrailing, hlast⟩ :=
        trailing_of_ended hlevel hbody hstatement hstarts hfresh hlt hrun hbackIndex hbackMemo
      rw [hclosed, Run.bind_of_error htrailing]
      exact ⟨last, rfl, hless, hlast⟩

omit hlevel in
/-- A braced expression that is no result is a statement, with or without a semicolon. -/
theorem agrees_braced {expression : Tree} {after : Cursor} (hbraced : expression.isBraced = true)
    (hstatement : Rule.statement tokens level cursor =
      (do let _ ← Rule.accept tokens .semicolon; return Tree.statement expression) after)
    {last : Token} (hprevious : after.previous? tokens = some last)
    (hlast : last.kind ≠ .semicolon) (hfresh : after.Fresh)
    (hindex : after.index ≤ tokens.size) :
    Agrees tokens after (Rule.closed tokens level (rounds + 1) cursor)
      (Reader.afterExpression expression (Reader.elements level' rounds) (after.rest tokens)) := by
  cases hcurly : Reader.nextIs .rightCurly (after.rest tokens) with
  | true =>
    obtain ⟨right, others, hrest, hright⟩ := Reader.exists_of_nextIs hcurly
    have hsemicolon : Reader.nextIs .semicolon (after.rest tokens) = false := by simp [hrest, hright]
    rw [Run.bind_of_ok (Rule.accept_of_not hsemicolon)] at hstatement
    have hresult : Rule.blockResult? tokens (.statement expression) after =
        .ok (some expression) after := by
      rw [Rule.blockResult?, Run.get_bind, hbraced, Cursor.nextIs_eq, hcurly, hprevious]
      simp only [beq_eq_false_iff_ne.mpr hlast]
      rfl
    rw [Rule.closed_of_result hgo hstatement hresult, Reader.afterExpression_of_rightCurly hcurly]
    exact follows_closeWith expression after hfresh hindex
  | false =>
    rw [Reader.afterExpression_of_not hcurly, if_pos hbraced]
    cases hsemicolon : Reader.nextIs .semicolon (after.rest tokens) with
    | true =>
      obtain ⟨semicolon, others, hrest, hkind⟩ := Reader.exists_of_nextIs hsemicolon
      rw [Run.bind_of_ok (Rule.accept_of_rest hrest hkind)] at hstatement
      rw [hrest, Run.bind_of_ok (Reader.accept_cons hkind)]
      exact agrees_ended hmore hgo hrest hkind hstatement hfresh
    | false =>
      rw [Run.bind_of_ok (Rule.accept_of_not hsemicolon)] at hstatement
      have hresult : Rule.blockResult? tokens (.statement expression) after = .ok none after := by
        rw [Rule.blockResult?, Run.get_bind, hbraced, Cursor.nextIs_eq, hcurly]
        rfl
      rw [Run.bind_of_ok (Reader.accept_of_not hsemicolon)]
      exact agrees_element hmore hgo hstatement hresult hfresh hindex

/-- An expression without braces is a statement before a semicolon, and the result of the block
before the closing brace, where it is found again as it was. -/
theorem agrees_unbraced {expression : Tree} {after : Cursor} (hbraced : expression.isBraced = false)
    (hrun : level.expression cursor = .ok expression after)
    (hstatement : Rule.statement tokens level cursor =
      (do let _ ← Rule.expect tokens .semicolon; return Tree.statement expression) after)
    (hfresh : cursor.Fresh) (hcursor : cursor.index ≤ tokens.size) (hafterFresh : after.Fresh)
    (hindex : after.index ≤ tokens.size) :
    Agrees tokens after (Rule.closed tokens level (rounds + 1) cursor)
      (Reader.afterExpression expression (Reader.elements level' rounds) (after.rest tokens)) := by
  cases hsemicolon : Reader.nextIs .semicolon (after.rest tokens) with
  | true =>
    obtain ⟨semicolon, others, hrest, hkind⟩ := Reader.exists_of_nextIs hsemicolon
    have hcurly : Reader.nextIs .rightCurly (after.rest tokens) = false := by simp [hrest, hkind]
    rw [Run.bind_of_ok (Rule.expect_of_rest hrest hkind)] at hstatement
    rw [Reader.afterExpression_of_not hcurly, if_neg (by simp [hbraced]), hrest,
      Run.bind_of_ok (Reader.expect_cons hkind)]
    exact agrees_ended hmore hgo hrest hkind hstatement hafterFresh
  | false =>
    rw [Run.bind_of_error (Rule.expect_of_not hsemicolon)] at hstatement
    obtain ⟨back, hbackIndex, hbackMemo, hclosed⟩ :=
      Rule.closed_of_syntaxError hgo rounds hstatement
    obtain ⟨last, hlast, hlastIndex, hlastMemo⟩ :=
      hlevel.replays.ok hfresh hcursor hrun hbackIndex hbackMemo
    have hlastRest : last.rest tokens = after.rest tokens := by
      rw [Cursor.rest, hlastIndex, Cursor.rest]
    have hkept : after.Kept last := fun _ _ ↦ by rw [hlastMemo]
    cases hcurly : Reader.nextIs .rightCurly (after.rest tokens) with
    | true =>
      have htrailing : ∀ error, Rule.trailing tokens level error back = .ok expression last := by
        intro error
        rw [Rule.trailing, hlast]
        simp only [Cursor.nextIs_eq, hlastRest, hcurly, if_true]
      have hlastFresh : last.Fresh := fun index hle ↦ by
        rw [hlastMemo, hafterFresh index (by omega)]
      rw [hclosed, Run.bind_of_ok (htrailing _), Reader.afterExpression_of_rightCurly hcurly,
        ← hlastRest]
      exact (follows_closeWith expression last hlastFresh (by omega)).of_later (by omega) hkept
    | false =>
      have htrailing : ∀ error, Rule.trailing tokens level error back =
          .error (.syntaxError error) last := by
        intro error
        rw [Rule.trailing, hlast]
        simp only [Cursor.nextIs_eq, hlastRest, hcurly]
        rfl
      rw [hclosed, Run.bind_of_error (htrailing _), Reader.afterExpression_of_not hcurly,
        if_neg (by simp [hbraced]), Run.bind_of_error (Reader.expect_of_not hsemicolon)]
      refine ⟨last, ?_, Nat.le_refl _, hkept⟩
      rw [Cursor.failure_rest tokens hindex]

/-- An element that starts otherwise is an expression, and what follows decides what it was. -/
theorem follows_expressionElement (hstatement : Rule.statement tokens level cursor =
      Rule.expressionStatement tokens level cursor) :
    FollowsAt tokens cursor (Rule.closed tokens level (rounds + 1)) (do
      let expression ← level'.expression
      Reader.afterExpression expression (Reader.elements level' rounds)) := by
  intro hfresh hindex
  have hrun := hlevel.expression cursor hfresh hindex
  cases hread : level'.expression (cursor.rest tokens) with
  | error obstacle rest =>
    rw [hread] at hrun
    obtain ⟨after, hrun, hlength, hkept⟩ := hrun
    have hstop := hstatement.trans (Run.bind_of_error hrun)
    rw [Run.bind_of_error hread]
    cases obstacle with
    | unknownDataType lexeme =>
      rw [Rule.closed_of_unknownDataType hgo hstop]
      exact ⟨after, rfl, hlength, hkept⟩
    | misfit cause =>
      obtain ⟨back, hbackIndex, hbackMemo, hclosed⟩ := Rule.closed_of_syntaxError hgo rounds hstop
      obtain ⟨last, hlast, hlastMemo⟩ :=
        hlevel.replays.error hfresh hindex hrun hbackIndex hbackMemo
      rw [hclosed, Run.bind_of_error (trailing_of_error hlast)]
      exact ⟨last, rfl, hlength, fun index hlt ↦ by rw [hlastMemo, hkept index hlt]⟩
  | ok expression rest =>
    rw [hread] at hrun
    obtain ⟨after, hrun, hafterFresh, rfl, hforward, hafterIndex, hkept⟩ := hrun
    rw [Run.bind_of_ok hread]
    refine Agrees.of_later ?_ hforward hkept
    have hstatement := hstatement.trans (Run.bind_of_ok hrun)
    cases hbraced : expression.isBraced with
    | true =>
      rw [if_pos hbraced] at hstatement
      obtain ⟨levels, hsound⟩ := hlevel.sound
      obtain ⟨taken, hrest, -, hderived, -⟩ := hsound.expression _ _ _ hread
      obtain ⟨front, right, rfl, hright⟩ := hderived.endsBraced hbraced
      exact agrees_braced hmore hgo hbraced hstatement (Cursor.previous?_eq hrest hafterIndex)
        (by simp [hright]) hafterFresh hafterIndex
    | false =>
      rw [if_neg (by simp [hbraced])] at hstatement
      exact agrees_unbraced hmore hgo hlevel hbraced hrun hstatement hfresh hindex hafterFresh
        hafterIndex

end

section

variable {tokens : Array Token} {level : Level} {level' : ReaderLevel}
  (hlevel : FollowsLevel tokens level level')

include hlevel

theorem follows_closed (rounds : Nat) :
    Follows tokens (Rule.closed tokens level rounds) (Reader.elements level' rounds) := by
  induction rounds with
  | zero => exact follows_closeWith .absent
  | succ rounds ih =>
    intro cursor
    cases hgo : cursor.nextIs tokens .rightCurly || cursor.atEnd tokens with
    | true =>
      refine FollowsAt.congr (follows_closeWith .absent cursor) (Rule.closed_of_end hgo) ?_
      rw [Cursor.nextIs_eq, Cursor.atEnd_eq] at hgo
      rw [Reader.elements, Run.get_bind, Run.get_bind, if_pos hgo]
    | false =>
      have hgo' := hgo
      rw [Cursor.nextIs_eq, Cursor.atEnd_eq] at hgo'
      cases hkeyword : Reader.declKeyword? (cursor.rest tokens) with
      | some keyword =>
        obtain ⟨token, others, hrest, -⟩ := Reader.exists_of_declKeyword? hkeyword
        refine FollowsAt.congr (follows_ended ih hgo hlevel hrest (statement_of_declKeyword? hkeyword)
          (follows_declarationBody hlevel.type hlevel.expression keyword)
          (fun tree rest hread ↦ declarationBody_blockResult? hread) (.inl (by rw [hkeyword]; rfl)))
          rfl ?_
        rw [Reader.elements, Run.get_bind, Run.get_bind, if_neg (by simp [hgo']), Run.get_bind,
          hkeyword]
        simp only [Reader.declaration, bind_assoc]
      | none =>
        cases hstarts : Reader.startsAssignment (cursor.rest tokens) with
        | true =>
          have hnext := (Bool.and_eq_true_iff.mp hstarts).1
          obtain ⟨token, others, hrest, hname⟩ := Reader.exists_of_nextIs hnext
          refine FollowsAt.congr (follows_ended ih hgo hlevel hrest
            (statement_of_startsAssignment hkeyword hrest hstarts)
            (follows_assignmentBody hlevel.expression token.lexeme)
            (fun tree rest hread ↦ assignmentBody_blockResult? hread) (.inr hstarts)) rfl ?_
          rw [Reader.elements, Run.get_bind, Run.get_bind, if_neg (by simp [hgo']), Run.get_bind,
            hkeyword]
          simp only [Run.get_bind, hstarts, if_true, Reader.assignment, bind_assoc]
          rw [hrest, Run.bind_of_ok (Reader.expect_cons hname), Run.bind_of_ok Reader.skip_cons]
        | false =>
          refine FollowsAt.congr (follows_expressionElement ih hgo hlevel
            (statement_of_expression hkeyword hstarts)) rfl ?_
          rw [Reader.elements, Run.get_bind, Run.get_bind, if_neg (by simp [hgo']), Run.get_bind,
            hkeyword]
          simp only [Run.get_bind, hstarts]
          rfl

theorem follows_block :
    Follows tokens (Rule.block tokens level) (Reader.block tokens.size level') := by
  intro cursor
  rw [Rule.block_eq]
  refine FollowsAt.bind (follows_expect .leftCurly cursor) fun _ after _ _ ↦ ?_
  exact FollowsAt.bind (follows_closed hlevel tokens.size after) fun _ _ _ _ ↦ FollowsAt.pure _

theorem follows_expressionWith :
    Follows tokens (Rule.expressionWith tokens level) (Reader.expressionWith tokens.size level') := by
  rw [Rule.expressionWith_eq]
  exact follows_expressionOver hlevel.expression (follows_block hlevel)

/-! ### Statements follow -/

theorem follows_statements (rounds : Nat) :
    Follows tokens (Rule.statements tokens level rounds) (Reader.statements level' rounds) := by
  induction rounds with
  | zero => exact fun cursor ↦ FollowsAt.pure []
  | succ rounds ih =>
    intro cursor
    refine FollowsAt.get ?_
    rw [Cursor.atEnd_eq]
    split
    · exact FollowsAt.pure []
    · refine FollowsAt.bind (follows_statement hlevel.type hlevel.expression cursor)
        fun _ after _ _ ↦ ?_
      exact FollowsAt.bind (ih after) fun _ _ _ _ ↦ FollowsAt.pure _

end

/-! ### Remembering -/

theorem replays_remembered (tokens : Array Token) (rule : Rule Tree) :
    Replays tokens (Rule.remembered rule) := by
  constructor
  · intro cursor after later tree hfresh _ hrun hindex hmemo
    rw [Rule.remembered, hfresh _ (Nat.le_refl _)] at hrun
    simp only at hrun
    split at hrun
    · next middle _ =>
      cases hrun
      refine ⟨{ later with index := middle.index }, ?_, rfl, hmemo⟩
      have hstored : later.memo[later.index]? = some (.parsed tree middle.index) := by
        rw [hmemo, hindex, Std.TreeMap.getElem?_insert_self]
      rw [Rule.remembered, hstored]
    · cases hrun
    · cases hrun
  · intro cursor after later error hfresh _ hrun hindex hmemo
    rw [Rule.remembered, hfresh _ (Nat.le_refl _)] at hrun
    simp only at hrun
    split at hrun
    · cases hrun
    · cases hrun
      refine ⟨later, ?_, hmemo⟩
      have hstored : later.memo[later.index]? = some (.failed error) := by
        rw [hmemo, hindex, Std.TreeMap.getElem?_insert_self]
      rw [Rule.remembered, hstored]
    · next hother _ =>
      cases hrun
      exact (hother _ rfl).elim

section

variable {tokens : Array Token} {block : Rule Tree} {cursor : Cursor}

theorem getElem?_insert_of_ne (memo : Std.TreeMap Nat Remembered) {index other : Nat}
    (found : Remembered) (hne : index ≠ other) :
    (memo.insert index found)[other]? = memo[other]? := by
  rw [Std.TreeMap.getElem?_insert, if_neg]
  simpa using hne

/-- Where nothing is remembered, the rule is run and its tree is remembered. -/
theorem Rule.remembered_of_ok {rule : Rule Tree} {tree : Tree} {after : Cursor}
    (hmemo : cursor.memo[cursor.index]? = none) (hrun : rule cursor = .ok tree after) :
    Rule.remembered rule cursor =
      .ok tree { after with memo := after.memo.insert cursor.index (.parsed tree after.index) } := by
  rw [Rule.remembered, hmemo]
  simp only [hrun]

theorem Rule.remembered_of_error {rule : Rule Tree} {error : SyntaxError} {after : Cursor}
    (hmemo : cursor.memo[cursor.index]? = none)
    (hrun : rule cursor = .error (.syntaxError error) after) :
    Rule.remembered rule cursor = .error (.syntaxError error)
      { after with memo := after.memo.insert cursor.index (.failed error) } := by
  rw [Rule.remembered, hmemo]
  simp only [hrun]

/-- Remembering does no harm to a rule that always moves the cursor. -/
theorem follows_remembered {rule : Rule Tree} {reader : Reader Tree}
    (hrule : Follows tokens rule reader)
    (hmoves : ∀ input tree rest, reader input = .ok tree rest → rest.length < input.length) :
    Follows tokens (Rule.remembered rule) reader := by
  intro cursor hfresh hindex
  have hrun := hrule cursor hfresh hindex
  rw [Rule.remembered, hfresh _ (Nat.le_refl _)]
  cases hread : reader (cursor.rest tokens) with
  | ok tree rest =>
    rw [hread] at hrun
    obtain ⟨after, hrun, hafterFresh, rfl, hforward, hafterIndex, hkept⟩ := hrun
    have hmove := hmoves _ _ _ hread
    rw [Cursor.length_rest, Cursor.length_rest] at hmove
    simp only [hrun]
    refine ⟨_, rfl, fun index hle ↦ ?_, rfl, hforward, hafterIndex, fun index hlt ↦ ?_⟩
    · rw [getElem?_insert_of_ne _ _ (by simp only at hle; omega)]
      exact hafterFresh index hle
    · rw [getElem?_insert_of_ne _ _ (by omega)]
      exact hkept index hlt
  | error obstacle rest =>
    rw [hread] at hrun
    obtain ⟨after, hrun, hlength, hkept⟩ := hrun
    cases obstacle with
    | unknownDataType lexeme =>
      simp only [hrun, Obstacle.failure]
      exact ⟨after, rfl, hlength, hkept⟩
    | misfit cause =>
      simp only [hrun, Obstacle.failure]
      refine ⟨_, rfl, hlength, fun index hlt ↦ ?_⟩
      rw [getElem?_insert_of_ne _ _ (by omega)]
      exact hkept index hlt

/-! ### Declarations and assignments are no expressions -/

/-- At a keyword that is not `if`, no expression starts. -/
theorem expressionOver_of_keyword {level : Level} {token : Token} {others : List Token}
    (hrest : cursor.rest tokens = token :: others) (hkind : token.kind = .keyword)
    (hif : token.isKeyword "if" = false) :
    Rule.expressionOver tokens block level cursor =
      .error (.syntaxError ⟨.expected .expression, cursor.index, cursor.next? tokens⟩) cursor := by
  have hnext : cursor.next? tokens = some token := by rw [Cursor.next?_eq, hrest, List.head?_cons]
  have hfactor : Rule.factor tokens level cursor =
      .error (.syntaxError ⟨.expected .expression, cursor.index, cursor.next? tokens⟩) cursor := by
    unfold Rule.factor
    rw [Run.get_bind, hnext]
    simp only [hkind, TokenKind.isLiteral]
    rw [← hnext]
    rfl
  have hminus : Reader.nextIs .minus (cursor.rest tokens) = false := by simp [hrest, hkind]
  have hterm : Rule.term tokens level cursor =
      .error (.syntaxError ⟨.expected .expression, cursor.index, cursor.next? tokens⟩) cursor := by
    rw [Rule.term, Run.bind_of_ok (Rule.accept_of_not hminus)]
    exact Run.bind_of_error hfactor
  unfold Rule.expressionOver
  rw [Run.get_bind, Cursor.nextIs_eq, Cursor.nextIsKeyword_eq, hrest, Reader.nextIs_cons,
    Reader.nextIsKeyword_cons, if_neg (by simp [hkind]), if_neg (by simp [hif])]
  exact Run.bind_of_error (Run.bind_of_error hterm)

theorem chain_of_none {operation? : TokenKind → Option ArithOp} {operand : Rule Tree} {left : Tree}
    (hnext : (cursor.rest tokens).head?.bind (operation? ·.kind) = none) (rounds : Nat) :
    Rule.chain tokens operation? operand rounds left cursor = .ok left cursor := by
  cases rounds with
  | zero => rfl
  | succ rounds =>
    unfold Rule.chain
    rw [Run.get_bind, Cursor.next?_eq, hnext]
    rfl

/-- Before `=`, an expression is no more than the name. -/
theorem expressionOver_of_startsAssignment {level : Level}
    (hstarts : Reader.startsAssignment (cursor.rest tokens) = true) :
    ∃ name, Rule.expressionOver tokens block level cursor =
        .ok (.identifier name) { cursor with index := cursor.index + 1 } ∧
      Cursor.nextIs tokens .rightCurly { cursor with index := cursor.index + 1 } = false := by
  obtain ⟨hidentifier, hequals⟩ := Bool.and_eq_true_iff.mp hstarts
  obtain ⟨token, others, hrest, hname⟩ := Reader.exists_of_nextIs hidentifier
  obtain ⟨equals, others, rfl, hequals⟩ : ∃ equals rest, others = equals :: rest ∧
      equals.kind = .assignment := by
    rw [hrest] at hequals
    cases others with
    | nil => cases hequals
    | cons equals rest => exact ⟨equals, rest, rfl, by simpa [Reader.secondIs] using hequals⟩
  obtain ⟨next, hnext⟩ : ∃ next, next = { cursor with index := cursor.index + 1 } := ⟨_, rfl⟩
  have hnextRest : next.rest tokens = equals :: others :=
    Cursor.rest_succ tokens hrest next (by rw [hnext])
  rw [← hnext]
  refine ⟨token.lexeme, ?_, by rw [Cursor.nextIs_eq, hnextRest]; simp [hequals]⟩
  have hfactor : Rule.factor tokens level cursor = .ok (.identifier token.lexeme) next := by
    have hparen : Cursor.nextIs tokens .leftParen next = false := by
      simp [Cursor.nextIs_eq, hnextRest, hequals]
    have hskip : Rule.skip cursor = .ok () next := by rw [hnext]; rfl
    unfold Rule.factor
    rw [Run.get_bind, Cursor.next?_eq, hrest, List.head?_cons]
    simp only [hname, TokenKind.isLiteral]
    refine (Run.bind_of_ok hskip).trans ?_
    rw [Run.get_bind, hparen]
    rfl
  have hminus : Reader.nextIs .minus (cursor.rest tokens) = false := by simp [hrest, hname]
  have hterm : Rule.term tokens level cursor = .ok (.identifier token.lexeme) next := by
    rw [Rule.term, Run.bind_of_ok (Rule.accept_of_not hminus)]
    exact (Run.bind_of_ok hfactor).trans (chain_of_none (by simp [hnextRest, hequals, multiplicativeOp?]) _)
  have hadditive : Rule.additive tokens level cursor = .ok (.identifier token.lexeme) next := by
    rw [Rule.additive, Run.bind_of_ok hterm]
    exact chain_of_none (by simp [hnextRest, hequals, additiveOp?]) _
  unfold Rule.expressionOver
  rw [Run.get_bind, Cursor.nextIs_eq, Cursor.nextIsKeyword_eq, hrest, Reader.nextIs_cons,
    Reader.nextIsKeyword_cons, if_neg (by simp [hname]), if_neg (by simp [Token.isKeyword, hname]),
    Rule.comparison, Run.bind_of_ok hadditive, Run.get_bind, Cursor.next?_eq, hnextRest]
  simp only [List.head?_cons, hequals, TokenKind.isComparison]
  rfl

theorem Reader.not_if_of_declKeyword? {input : List Token}
    (hkeyword : (Reader.declKeyword? input).isSome = true) :
    ∃ token others, input = token :: others ∧ token.kind = .keyword ∧
      token.isKeyword "if" = false := by
  obtain ⟨keyword, hkeyword⟩ := Option.isSome_iff_exists.mp hkeyword
  obtain ⟨token, others, hinput, hword⟩ := Reader.exists_of_declKeyword? hkeyword
  refine ⟨token, others, hinput, Token.kind_of_isKeyword hword, ?_⟩
  simp only [Token.isKeyword, Bool.and_eq_true, beq_iff_eq] at hword
  cases keyword <;> simp [Token.isKeyword, hword, DeclKeyword.text]

/-- Where a declaration or an assignment starts, the rule finds no expression, or no more than one
token that is not before a closing brace. -/
def Rebuffed (tokens : Array Token) (rule : Rule Tree) : Prop :=
  ∀ cursor : Cursor, (Reader.declKeyword? (cursor.rest tokens)).isSome = true ∨
      Reader.startsAssignment (cursor.rest tokens) = true →
    (∃ error, rule cursor = .error (.syntaxError error) cursor ∧ error.position = cursor.index) ∨
    ∃ tree, rule cursor = .ok tree { cursor with index := cursor.index + 1 } ∧
      Cursor.nextIs tokens .rightCurly { cursor with index := cursor.index + 1 } = false

theorem rebuffed_tooDeep : Rebuffed tokens (Rule.tooDeep tokens) :=
  fun _ _ ↦ .inl ⟨_, rfl, rfl⟩

theorem rebuffed_expressionOver (level : Level) :
    Rebuffed tokens (Rule.expressionOver tokens block level) := by
  rintro cursor (hkeyword | hstarts)
  · obtain ⟨token, others, hrest, hkind, hif⟩ := Reader.not_if_of_declKeyword? hkeyword
    exact .inl ⟨_, expressionOver_of_keyword hrest hkind hif, rfl⟩
  · obtain ⟨name, hrun, hcurly⟩ := expressionOver_of_startsAssignment hstarts
    exact .inr ⟨_, hrun, hcurly⟩

theorem rebuffed_expressionWith (level : Level) :
    Rebuffed tokens (Rule.expressionWith tokens level) := by
  rw [Rule.expressionWith_eq]
  exact rebuffed_expressionOver level

/-- The error of the statement stands if the expression stops no further on, and if it ends where no
brace closes the block. -/
theorem trailing_of_outcome {level : Level} {error : SyntaxError} {after : Cursor}
    (houtcome : (∃ found, level.expression cursor = .error (.syntaxError found) after ∧
        found.position ≤ error.position) ∨
      ∃ tree, level.expression cursor = .ok tree after ∧ after.nextIs tokens .rightCurly = false) :
    Rule.trailing tokens level error cursor = .error (.syntaxError error) after := by
  unfold Rule.trailing
  rcases houtcome with ⟨found, hrun, hfound⟩ | ⟨tree, hrun, hcurly⟩
  · simp only [hrun]
    rw [if_neg (by omega)]
  · simp only [hrun]
    rw [if_neg (by simp [hcurly])]

theorem declines_remembered {level : Level} {rule : Rule Tree}
    (hexpression : level.expression = Rule.remembered rule) (hrule : Rebuffed tokens rule) :
    Declines tokens level := by
  intro cursor error hmemo hfirst hposition
  rcases hrule cursor hfirst with ⟨found, hrun, hfound⟩ | ⟨tree, hrun, hcurly⟩
  · have hremembered := Rule.remembered_of_error hmemo hrun
    rw [← hexpression] at hremembered
    refine ⟨_, trailing_of_outcome (.inl ⟨found, hremembered, by omega⟩), fun index hlt ↦ ?_⟩
    rw [getElem?_insert_of_ne _ _ (by omega)]
  · have hremembered := Rule.remembered_of_ok hmemo hrun
    rw [← hexpression] at hremembered
    refine ⟨_, trailing_of_outcome (.inr ⟨tree, hremembered, hcurly⟩), fun index hlt ↦ ?_⟩
    rw [getElem?_insert_of_ne _ _ (by omega)]

end

/-! ### Whole programs -/

namespace Rule

variable (tokens : Array Token) (block : Level → Rule Tree)

/-- An expression with at most the given number of levels, its own included, given the rule for
blocks. -/
def expressionUsing : Nat → Rule Tree
  | 0 => remembered (tooDeep tokens)
  | levels + 1 =>
    let level : Level := ⟨typeRule tokens levels, expressionUsing levels⟩
    remembered (expressionOver tokens (block level) level)

/-- The rules that may still open the given number of levels, given the rule for blocks. -/
def levelUsing (levels : Nat) : Level := ⟨typeRule tokens levels, expressionUsing tokens block levels⟩

theorem level_eq (levels : Nat) : level tokens levels = levelUsing tokens (Rule.block tokens) levels := by
  have hexpression : expression tokens levels = expressionUsing tokens (Rule.block tokens) levels := by
    induction levels with
    | zero => rfl
    | succ levels ih => rw [expression, expressionUsing, expressionWith_eq, ih]
  rw [level, levelUsing, hexpression]

end Rule

/-- The rules follow the readers at every number of levels, if those for blocks do. -/
theorem follows_levelUsing {tokens : Array Token} {block : Level → Rule Tree}
    (hblock : ∀ {level : Level} {level' : ReaderLevel}, FollowsLevel tokens level level' →
      Follows tokens (block level) (Reader.block tokens.size level')) (levels : Nat) :
    FollowsLevel tokens (Rule.levelUsing tokens block levels) (Reader.level tokens.size levels) := by
  induction levels with
  | zero =>
    refine ⟨follows_type 0, ?_, replays_remembered tokens (Rule.tooDeep tokens),
      declines_remembered rfl rebuffed_tooDeep, 0, sound_level tokens.size 0⟩
    refine follows_remembered (fun cursor ↦ FollowsAt.tooDeep) fun _ _ _ hread ↦ ?_
    cases hread
  | succ levels ih =>
    refine ⟨follows_type (levels + 1), ?_, replays_remembered tokens _,
      declines_remembered rfl (rebuffed_expressionOver (Rule.levelUsing tokens block levels)),
      levels + 1, sound_level tokens.size (levels + 1)⟩
    refine follows_remembered (follows_expressionOver ih.expression (hblock ih))
      fun input tree rest hread ↦ ?_
    obtain ⟨taken, rfl, -, hderived, -⟩ :=
      (sound_level tokens.size (levels + 1)).expression input tree rest hread
    have hpositive := List.length_pos_iff.mpr hderived.ne_nil
    rw [List.length_append]
    omega

theorem follows_level {tokens : Array Token} (levels : Nat) :
    FollowsLevel tokens (Rule.level tokens levels) (Reader.level tokens.size levels) := by
  rw [Rule.level_eq]
  exact follows_levelUsing (fun hlevel ↦ follows_block hlevel) levels

/-- Rules that follow the readers parse whole programs as the readers predict them. -/
theorem program_eq_predict (tokens : List Token) {level : Level}
    (hlevel : FollowsLevel tokens.toArray level (Reader.level tokens.length nestingLimit)) :
    (match Rule.program tokens.toArray level {} with
      | .ok tree _ => .ok tree
      | .error failure _ => .error failure) = predict tokens := by
  have hrun := follows_statements hlevel tokens.length {} (fun index _ ↦ by simp) (Nat.zero_le _)
  have hrest : Cursor.rest tokens.toArray {} = tokens := by simp [Cursor.rest]
  rw [hrest] at hrun
  unfold predict Rule.program Reader.program
  simp only [List.size_toArray] at hrun ⊢
  cases hread : Reader.statements (Reader.level tokens.length nestingLimit) tokens.length tokens with
  | ok trees rest =>
    rw [hread] at hrun
    obtain ⟨after, hrun, -⟩ := hrun
    rw [Run.bind_of_ok hrun, Run.bind_of_ok hread]
    rfl
  | error obstacle rest =>
    rw [hread] at hrun
    obtain ⟨after, hrun, -⟩ := hrun
    rw [Run.bind_of_error hrun, Run.bind_of_error hread]
    simp

/-- Parsing with a memo and a cursor that moves back is reading without either. -/
theorem parse_eq_predict (tokens : List Token) : parse tokens = predict tokens :=
  program_eq_predict tokens (follows_level nestingLimit)

end LetLang
