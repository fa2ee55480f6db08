import LetLang.Proofs.Grammar.Prediction
import LetLang.Proofs.Run

/-!
# Rules that follow readers

The rules of the grammar move a cursor over an array of tokens, the readers take tokens off a list.
`Follows` relates a rule and a reader that come to the same outcome from every cursor at which
nothing is remembered about the tokens still to be read (`Cursor.Fresh`). A rule that succeeds leaves
such a cursor behind, because whatever it remembered started before the place where it ended; so the
relation composes along `bind`, and each rule that does not move back follows its reader by one short
argument. Blocks, which do move back, are the subject of the next module; conditionals and
expressions follow as soon as the rule for blocks does (`follows_expressionOver`).
-/

set_option autoImplicit false

namespace LetLang

/-! ### Cursors -/

namespace Cursor

variable (tokens : Array Token) (cursor : Cursor)

/-- The tokens still to be read. -/
def rest : List Token := tokens.toList.drop cursor.index

/-- Nothing is remembered about the tokens still to be read. -/
def Fresh : Prop := ∀ index, cursor.index ≤ index → cursor.memo[index]? = none

/-- What was remembered about the tokens before the cursor is as it was at the cursor. -/
def Kept (after : Cursor) : Prop :=
  ∀ index, index < cursor.index → after.memo[index]? = cursor.memo[index]?

variable {cursor}

theorem next?_eq : cursor.next? tokens = (cursor.rest tokens).head? := by
  simp [next?, rest, List.head?_drop]

theorem nextIs_eq (kind : TokenKind) :
    cursor.nextIs tokens kind = Reader.nextIs kind (cursor.rest tokens) := by
  rw [nextIs, Reader.nextIs, next?_eq]

theorem nextIsKeyword_eq (word : String) :
    cursor.nextIsKeyword tokens word = Reader.nextIsKeyword word (cursor.rest tokens) := by
  rw [nextIsKeyword, Reader.nextIsKeyword, next?_eq]

theorem second?_eq : tokens[cursor.index + 1]? = (cursor.rest tokens)[1]? := by
  simp [rest]

theorem secondIs_eq (kind : TokenKind) :
    cursor.secondIs tokens kind = Reader.secondIs kind (cursor.rest tokens) := by
  rw [secondIs, Reader.secondIs, second?_eq]

theorem secondIsKeyword_eq (word : String) :
    cursor.secondIsKeyword tokens word = Reader.secondIsKeyword word (cursor.rest tokens) := by
  rw [secondIsKeyword, Reader.secondIsKeyword, second?_eq]

theorem atEnd_eq : cursor.atEnd tokens = Reader.atEnd (cursor.rest tokens) := by
  rw [atEnd, Reader.atEnd, next?_eq]

theorem length_rest : (cursor.rest tokens).length = tokens.size - cursor.index := by
  simp [rest]

/-- One token further on, one token less is left. -/
theorem rest_succ {token : Token} {others : List Token}
    (hrest : cursor.rest tokens = token :: others) (after : Cursor)
    (hindex : after.index = cursor.index + 1) : after.rest tokens = others := by
  rw [rest, hindex, ← List.drop_drop]
  change List.drop 1 (cursor.rest tokens) = others
  rw [hrest]
  rfl

theorem index_lt {token : Token} {others : List Token}
    (hrest : cursor.rest tokens = token :: others) : cursor.index < tokens.size := by
  have hlength : (cursor.rest tokens).length = tokens.size - cursor.index := length_rest tokens
  rw [hrest, List.length_cons] at hlength
  omega

/-- Nothing is remembered about the tokens after the next one either. -/
theorem Fresh.succ (hfresh : cursor.Fresh) :
    Fresh { cursor with index := cursor.index + 1 } :=
  fun index hindex ↦ hfresh index (Nat.le_of_succ_le hindex)

/-- A rule that starts after the next token and keeps what was remembered remembers nothing about
the next token. -/
theorem Kept.of_succ {after : Cursor} (hfresh : cursor.Fresh)
    (hkept : Kept { cursor with index := cursor.index + 1 } after) :
    cursor.Kept after ∧ after.memo[cursor.index]? = none :=
  ⟨fun index hindex ↦ hkept index (Nat.lt_succ_of_lt hindex),
    (hkept cursor.index (Nat.lt_succ_self _)).trans (hfresh _ (Nat.le_refl _))⟩

/-- A reader that stops at the cursor reports its index. -/
theorem failure_rest {cause : SyntaxCause} (hindex : cursor.index ≤ tokens.size) :
    (Obstacle.misfit cause).failure tokens.size (cursor.rest tokens) =
      .syntaxError ⟨cause, cursor.index, cursor.next? tokens⟩ := by
  have hposition : tokens.size - (cursor.rest tokens).length = cursor.index := by
    rw [length_rest]
    omega
  rw [Obstacle.failure, hposition, next?_eq]

end Cursor

/-! ### Rules that follow readers -/

section

variable (tokens : Array Token)

/-- The outcome of a rule, started at the cursor, is the one expected from a reader. After a success
the cursor is fresh and has what the reader left still before it. -/
def Agrees {α : Type} (cursor : Cursor) (outcome : EStateM.Result ParseFailure Cursor α) :
    EStateM.Result Obstacle (List Token) α → Prop
  | .ok value rest => ∃ after : Cursor, outcome = .ok value after ∧ after.Fresh ∧
      after.rest tokens = rest ∧ cursor.index ≤ after.index ∧ after.index ≤ tokens.size ∧
      cursor.Kept after
  | .error obstacle rest => ∃ after : Cursor,
      outcome = .error (obstacle.failure tokens.size rest) after ∧
      rest.length ≤ (cursor.rest tokens).length ∧ cursor.Kept after

/-- At the given cursor, if it is fresh, the rule does what the reader does. -/
def FollowsAt {α : Type} (cursor : Cursor) (rule : Rule α) (reader : Reader α) : Prop :=
  cursor.Fresh → cursor.index ≤ tokens.size →
    Agrees tokens cursor (rule cursor) (reader (cursor.rest tokens))

/-- At every fresh cursor, the rule does what the reader does. -/
def Follows {α : Type} (rule : Rule α) (reader : Reader α) : Prop :=
  ∀ cursor, FollowsAt tokens cursor rule reader

variable {tokens} {α β : Type} {cursor : Cursor}

/-- What holds of a rule started later holds of it as a part of what was started earlier. -/
theorem Agrees.of_later {middle : Cursor} {outcome : EStateM.Result ParseFailure Cursor α}
    {expected : EStateM.Result Obstacle (List Token) α} (hagrees : Agrees tokens middle outcome expected)
    (hforward : cursor.index ≤ middle.index) (hkept : cursor.Kept middle) :
    Agrees tokens cursor outcome expected := by
  have hkeeps : ∀ after, middle.Kept after → cursor.Kept after := fun after hafter index hlt ↦ by
    rw [hafter index (by omega), hkept index hlt]
  cases expected with
  | ok value rest =>
    obtain ⟨after, hrun, hfresh, hrest, hmore, hindex, hafter⟩ := hagrees
    exact ⟨after, hrun, hfresh, hrest, Nat.le_trans hforward hmore, hindex, hkeeps after hafter⟩
  | error obstacle rest =>
    obtain ⟨after, hrun, hlength, hafter⟩ := hagrees
    refine ⟨after, hrun, Nat.le_trans hlength ?_, hkeeps after hafter⟩
    rw [Cursor.length_rest, Cursor.length_rest]
    omega

theorem Agrees.of_ok {value : α} {after : Cursor} {expected : EStateM.Result Obstacle (List Token) α}
    (hagrees : Agrees tokens cursor (.ok value after) expected) :
    after.Fresh ∧ after.index ≤ tokens.size := by
  cases expected with
  | ok value rest =>
    obtain ⟨_, hrun, hfresh, -, -, hindex, -⟩ := hagrees
    cases hrun
    exact ⟨hfresh, hindex⟩
  | error obstacle rest =>
    obtain ⟨_, hcontrary, -⟩ := hagrees
    cases hcontrary

/-- A rule that does what a reader does reports no error before the place where it started. -/
theorem Agrees.of_syntaxError {error : SyntaxError} {after : Cursor}
    {expected : EStateM.Result Obstacle (List Token) α}
    (hagrees : Agrees tokens cursor (.error (.syntaxError error) after) expected)
    (hindex : cursor.index ≤ tokens.size) : (cursor.index : Int) ≤ error.position ∧ cursor.Kept after := by
  cases expected with
  | ok value rest =>
    obtain ⟨_, hcontrary, -⟩ := hagrees
    cases hcontrary
  | error obstacle rest =>
    obtain ⟨_, herror, hlength, hkept⟩ := hagrees
    rw [Cursor.length_rest] at hlength
    injection herror with hfailure hafter
    subst hafter
    cases obstacle with
    | unknownDataType lexeme => cases hfailure
    | misfit cause =>
      cases hfailure
      exact ⟨by simp only; omega, hkept⟩

namespace FollowsAt

theorem pure (value : α) : FollowsAt tokens cursor (Pure.pure value) (Pure.pure value) :=
  fun hfresh hindex ↦ ⟨cursor, rfl, hfresh, rfl, Nat.le_refl _, hindex, fun _ _ ↦ rfl⟩

/-- A rule that stops where the reader does, at the cursor. -/
theorem misfit {rule : Rule α} {reader : Reader α} {cause : SyntaxCause} {after : Cursor}
    (hrule : rule cursor = .error (.syntaxError ⟨cause, cursor.index, cursor.next? tokens⟩) after)
    (hreader : reader (cursor.rest tokens) = .error (.misfit cause) (cursor.rest tokens))
    (hmemo : after.memo = cursor.memo) : FollowsAt tokens cursor rule reader := by
  intro _ hindex
  rw [hreader]
  refine ⟨after, ?_, Nat.le_refl _, fun _ _ ↦ by rw [hmemo]⟩
  rw [hrule, Cursor.failure_rest tokens hindex]

/-- Only the runs from the cursor matter. -/
theorem congr {rule rule' : Rule α} {reader reader' : Reader α}
    (hfollows : FollowsAt tokens cursor rule' reader') (hrule : rule cursor = rule' cursor)
    (hreader : reader (cursor.rest tokens) = reader' (cursor.rest tokens)) :
    FollowsAt tokens cursor rule reader := by
  intro hfresh hindex
  rw [hrule, hreader]
  exact hfollows hfresh hindex

theorem bind {rule : Rule α} {reader : Reader α} {next : α → Rule β} {next' : α → Reader β}
    (hrule : FollowsAt tokens cursor rule reader)
    (hnext : ∀ value after, reader (cursor.rest tokens) = .ok value (after.rest tokens) →
      cursor.index ≤ after.index → FollowsAt tokens after (next value) (next' value)) :
    FollowsAt tokens cursor (rule >>= next) (reader >>= next') := by
  intro hfresh hindex
  have hfirst := hrule hfresh hindex
  cases hread : reader (cursor.rest tokens) with
  | error obstacle rest =>
    rw [hread] at hfirst
    obtain ⟨after, hrun, hlength, hkept⟩ := hfirst
    rw [Run.bind_of_error hread, Run.bind_of_error hrun]
    exact ⟨after, rfl, hlength, hkept⟩
  | ok value rest =>
    rw [hread] at hfirst
    obtain ⟨middle, hrun, hmiddleFresh, rfl, hforward, hmiddleIndex, hkept⟩ := hfirst
    rw [Run.bind_of_ok hread, Run.bind_of_ok hrun]
    exact (hnext value middle hread hforward hmiddleFresh hmiddleIndex).of_later hforward hkept

theorem get {next : Cursor → Rule β} {next' : List Token → Reader β}
    (hnext : FollowsAt tokens cursor (next cursor) (next' (cursor.rest tokens))) :
    FollowsAt tokens cursor (MonadState.get >>= next) (MonadState.get >>= next') := hnext

theorem skip {token : Token} {others : List Token} (hrest : cursor.rest tokens = token :: others) :
    FollowsAt tokens cursor Rule.skip Reader.skip := by
  intro hfresh _
  rw [hrest, Reader.skip_cons]
  exact ⟨{ cursor with index := cursor.index + 1 }, rfl, hfresh.succ,
    Cursor.rest_succ tokens hrest _ rfl, Nat.le_succ _, Cursor.index_lt tokens hrest, fun _ _ ↦ rfl⟩

theorem fail (what : Expected) :
    FollowsAt tokens cursor (Rule.fail (α := α) tokens what) (Reader.fail what) :=
  misfit rfl rfl rfl

theorem tooDeep : FollowsAt tokens cursor (Rule.tooDeep (α := α) tokens) Reader.tooDeep :=
  misfit rfl rfl rfl

theorem typedLiteral {token : Token} {others : List Token}
    (hrest : cursor.rest tokens = token :: others) :
    FollowsAt tokens cursor (Rule.typedLiteral token) (Reader.typedLiteral token) := by
  cases hnumber : token.number? with
  | some number =>
    unfold Rule.typedLiteral Reader.typedLiteral
    simp only [hnumber]
    exact bind (skip hrest) fun _ _ _ _ ↦ pure number
  | none =>
    have hnext : cursor.next? tokens = some token := by rw [Cursor.next?_eq, hrest, List.head?_cons]
    have hrule : Rule.typedLiteral token cursor =
        .error (.syntaxError ⟨.expected .expression, cursor.index, cursor.next? tokens⟩)
          { cursor with index := cursor.index + 1 } := by
      unfold Rule.typedLiteral
      rw [hnumber, hnext]
      rfl
    refine misfit hrule ?_ rfl
    unfold Reader.typedLiteral
    rw [hnumber]
    rfl

end FollowsAt

theorem follows_expect (kind : TokenKind) :
    Follows tokens (Rule.expect tokens kind) (Reader.expect kind) := by
  intro cursor
  refine FollowsAt.get ?_
  rw [Cursor.next?_eq]
  cases hrest : cursor.rest tokens with
  | nil => exact FollowsAt.fail _
  | cons token others =>
    simp only [List.head?_cons]
    split
    · exact FollowsAt.bind (FollowsAt.skip hrest) fun _ _ _ _ ↦ FollowsAt.pure _
    · exact FollowsAt.fail _

theorem follows_accept (kind : TokenKind) :
    Follows tokens (Rule.accept tokens kind) (Reader.accept kind) := by
  intro cursor
  refine FollowsAt.get ?_
  rw [Cursor.nextIs_eq]
  split
  · next hnext =>
    obtain ⟨token, others, hrest, -⟩ := Reader.exists_of_nextIs hnext
    exact FollowsAt.bind (FollowsAt.skip hrest) fun _ _ _ _ ↦ FollowsAt.pure _
  · exact FollowsAt.pure _

theorem follows_expectKeyword (word : String) :
    Follows tokens (Rule.expectKeyword tokens word) (Reader.expectKeyword word) := by
  intro cursor
  refine FollowsAt.get ?_
  rw [Cursor.nextIsKeyword_eq]
  split
  · next hnext =>
    obtain ⟨token, others, hrest, -⟩ := Reader.exists_of_nextIsKeyword hnext
    exact FollowsAt.skip hrest
  · exact FollowsAt.fail _

/-! ### Lists and types -/

theorem follows_afterCommas {item : Rule α} {item' : Reader α} (hitem : Follows tokens item item')
    (rounds : Nat) :
    Follows tokens (Rule.afterCommas tokens item rounds) (Reader.afterCommas item' rounds) := by
  induction rounds with
  | zero => exact fun cursor ↦ FollowsAt.pure []
  | succ rounds ih =>
    intro cursor
    refine FollowsAt.bind (follows_accept .comma cursor) fun found after _ _ ↦ ?_
    split
    · refine FollowsAt.bind (hitem after) fun first middle _ _ ↦ ?_
      exact FollowsAt.bind (ih middle) fun rest _ _ _ ↦ FollowsAt.pure _
    · exact FollowsAt.pure []

theorem follows_listed {item : Rule α} {item' : Reader α} (hitem : Follows tokens item item') :
    Follows tokens (Rule.listed tokens item) (Reader.listed tokens.size item') := by
  intro cursor
  refine FollowsAt.bind (follows_expect .leftParen cursor) fun _ after _ _ ↦ FollowsAt.get ?_
  rw [Cursor.nextIs_eq]
  split
  · exact FollowsAt.bind (follows_expect .rightParen after) fun _ _ _ _ ↦ FollowsAt.pure _
  · refine FollowsAt.bind (hitem after) fun first middle _ _ ↦ ?_
    refine FollowsAt.bind (follows_afterCommas hitem tokens.size middle) fun rest last _ _ ↦ ?_
    exact FollowsAt.bind (follows_expect .rightParen last) fun _ _ _ _ ↦ FollowsAt.pure _

theorem follows_typeWith {function : Rule Tree} {function' : Reader Tree}
    (hfunction : Follows tokens function function') :
    Follows tokens (Rule.typeWith tokens function) (Reader.typeWith function') := by
  intro cursor
  refine FollowsAt.get ?_
  rw [Cursor.next?_eq]
  cases hrest : cursor.rest tokens with
  | nil => exact FollowsAt.fail _
  | cons token others =>
    simp only [List.head?_cons]
    split
    · cases hname : token.lexeme.bind DataType.ofName? with
      | some name => exact FollowsAt.bind (FollowsAt.skip hrest) fun _ _ _ _ ↦ FollowsAt.pure _
      | none =>
        intro _ _
        exact ⟨{ cursor with index := cursor.index + 1 }, rfl, Nat.le_refl _, fun _ _ ↦ rfl⟩
    · split
      · exact hfunction cursor
      · exact FollowsAt.fail _

theorem follows_parameter {type : Rule Tree} {type' : Reader Tree}
    (htype : Follows tokens type type') :
    Follows tokens (Rule.parameter tokens type) (Reader.parameter type') := by
  intro cursor
  refine FollowsAt.bind (follows_expect .identifier cursor) fun _ after _ _ ↦ ?_
  refine FollowsAt.bind (follows_expect .colon after) fun _ after _ _ ↦ ?_
  exact FollowsAt.bind (htype after) fun _ _ _ _ ↦ FollowsAt.pure _

theorem follows_functionType {type : Rule Tree} {type' : Reader Tree}
    (htype : Follows tokens type type') :
    Follows tokens (Rule.functionType tokens type) (Reader.functionType tokens.size type') := by
  intro cursor
  refine FollowsAt.bind (follows_listed (follows_parameter htype) cursor) fun _ after _ _ ↦ ?_
  refine FollowsAt.bind (follows_expect .arrow after) fun _ after _ _ ↦ ?_
  exact FollowsAt.bind (htype after) fun _ _ _ _ ↦ FollowsAt.pure _

theorem follows_type (levels : Nat) :
    Follows tokens (Rule.typeRule tokens levels) (Reader.type tokens.size levels) := by
  induction levels with
  | zero => exact follows_typeWith fun cursor ↦ FollowsAt.tooDeep
  | succ levels ih => exact follows_typeWith (follows_functionType ih)

/-! ### Expressions -/

theorem follows_chain {operation? : TokenKind → Option ArithOp} {operand : Rule Tree}
    {operand' : Reader Tree} (hoperand : Follows tokens operand operand') (rounds : Nat) :
    ∀ left, Follows tokens (Rule.chain tokens operation? operand rounds left)
      (Reader.chain operation? operand' rounds left) := by
  induction rounds with
  | zero => exact fun left cursor ↦ FollowsAt.pure left
  | succ rounds ih =>
    intro left cursor
    refine FollowsAt.get ?_
    rw [Cursor.next?_eq]
    cases hop : (cursor.rest tokens).head?.bind (operation? ·.kind) with
    | some op =>
      obtain ⟨operator, hoperator, -⟩ := Option.bind_eq_some_iff.mp hop
      obtain ⟨others, hrest⟩ := List.head?_eq_some_iff.mp hoperator
      refine FollowsAt.bind (FollowsAt.skip hrest) fun _ after _ _ ↦ ?_
      exact FollowsAt.bind (hoperand after) fun right after _ _ ↦ ih _ after
    | none => exact FollowsAt.pure left

section

variable {level : Level} {level' : ReaderLevel}
  (hexpression : Follows tokens level.expression level'.expression)

include hexpression

theorem follows_factor : Follows tokens (Rule.factor tokens level)
    (Reader.factor tokens.size level') := by
  intro cursor
  refine FollowsAt.get ?_
  rw [Cursor.next?_eq]
  cases hrest : cursor.rest tokens with
  | nil => exact FollowsAt.fail _
  | cons token others =>
    simp only [List.head?_cons]
    split
    · exact FollowsAt.bind (FollowsAt.skip hrest) fun _ _ _ _ ↦ FollowsAt.pure _
    split
    · refine FollowsAt.typedLiteral hrest
    split
    · refine FollowsAt.bind (FollowsAt.skip hrest) fun _ after _ _ ↦ FollowsAt.get ?_
      rw [Cursor.nextIs_eq]
      split
      · exact FollowsAt.bind (follows_listed hexpression after) fun _ _ _ _ ↦ FollowsAt.pure _
      · exact FollowsAt.pure _
    split
    · refine FollowsAt.bind (FollowsAt.skip hrest) fun _ after _ _ ↦ ?_
      refine FollowsAt.bind (hexpression after) fun _ after _ _ ↦ ?_
      exact FollowsAt.bind (follows_expect .rightParen after) fun _ _ _ _ ↦ FollowsAt.pure _
    · exact FollowsAt.fail _

theorem follows_term : Follows tokens (Rule.term tokens level) (Reader.term tokens.size level') := by
  intro cursor
  refine FollowsAt.bind (follows_accept .minus cursor) fun found after _ _ ↦ ?_
  split
  · refine FollowsAt.bind (follows_factor hexpression after) fun first after _ _ ↦ ?_
    exact follows_chain (follows_factor hexpression) _ _ after
  · refine FollowsAt.bind (follows_factor hexpression after) fun first after _ _ ↦ ?_
    exact follows_chain (follows_factor hexpression) _ _ after

theorem follows_additive : Follows tokens (Rule.additive tokens level)
    (Reader.additive tokens.size level') := by
  intro cursor
  refine FollowsAt.bind (follows_term hexpression cursor) fun first after _ _ ↦ ?_
  exact follows_chain (follows_term hexpression) _ _ after

theorem follows_comparison : Follows tokens (Rule.comparison tokens level)
    (Reader.comparison tokens.size level') := by
  intro cursor
  refine FollowsAt.bind (follows_additive hexpression cursor) fun left after _ _ ↦ FollowsAt.get ?_
  rw [Cursor.next?_eq]
  cases hrest : after.rest tokens with
  | nil => exact FollowsAt.pure _
  | cons token others =>
    have hkind := CompareOp.isSome_ofKind? token.kind
    simp only [List.head?_cons, Option.bind_some]
    cases hop : CompareOp.ofKind? token.kind with
    | some op =>
      rw [hop, Option.isSome_some] at hkind
      rw [if_pos hkind.symm]
      refine FollowsAt.bind (FollowsAt.skip hrest) fun _ after _ _ ↦ ?_
      exact FollowsAt.bind (follows_additive hexpression after) fun _ _ _ _ ↦ FollowsAt.pure _
    | none =>
      rw [hop, Option.isSome_none] at hkind
      rw [if_neg (by simp [← hkind])]
      exact FollowsAt.pure _

end

end

/-! ### Statements -/

theorem DeclKeyword.ofText?_text (keyword : DeclKeyword) :
    DeclKeyword.ofText? keyword.text = some keyword := by
  cases keyword <;> decide

namespace Rule

variable (tokens : Array Token) (level : Level)

/-- What follows the keyword of a declaration. -/
def declarationBody (keyword : DeclKeyword) : Rule Tree := do
  let name ← expect tokens .identifier
  let _ ← expect tokens .colon
  let type ← level.type
  let _ ← expect tokens .assignment
  let value ← level.expression
  let _ ← expect tokens .semicolon
  return .declaration keyword name type value

/-- What follows the name in an assignment. -/
def assignmentBody (name : Lexeme) : Rule Tree := do
  let _ ← expect tokens .assignment
  let value ← level.expression
  let _ ← expect tokens .semicolon
  return .assignment name value

variable {tokens} {level} {cursor : Cursor} {token : Token} {others : List Token}

theorem advance_of_rest (hrest : cursor.rest tokens = token :: others)
    (hend : token.kind ≠ .endOfStream) :
    advance tokens cursor = .ok (some token) { cursor with index := cursor.index + 1 } := by
  have hnext : cursor.next? tokens = some token := by
    rw [Cursor.next?_eq, hrest, List.head?_cons]
  have hatEnd : cursor.atEnd tokens = false := by simp [Cursor.atEnd, hnext, hend]
  have hlt := Cursor.index_lt tokens hrest
  have hprevious : Cursor.previous? tokens { cursor with index := cursor.index + 1 } = some token := by
    rw [← hnext, Cursor.previous?, if_neg (Nat.succ_ne_zero _), Cursor.next?]
    rfl
  unfold advance
  rw [Run.get_bind, hatEnd]
  change (if tokens.size < cursor.index + 1 then _ else _ : Rule (Option Token)) _ = _
  rw [if_neg (by omega)]
  change EStateM.Result.ok (Cursor.previous? tokens _) _ = _
  rw [hprevious]

theorem declaration_of_rest {keyword : DeclKeyword} (hrest : cursor.rest tokens = token :: others)
    (hword : token.isKeyword keyword.text = true) :
    declaration tokens level cursor =
      declarationBody tokens level keyword { cursor with index := cursor.index + 1 } := by
  simp only [Token.isKeyword, Bool.and_eq_true, beq_iff_eq] at hword
  obtain ⟨hkind, hlexeme⟩ := hword
  have hadvance := advance_of_rest hrest (by simp [hkind])
  have htext : token.lexeme.bind DeclKeyword.ofText? = some keyword := by
    rw [hlexeme, Option.bind_some, DeclKeyword.ofText?_text]
  unfold declaration
  rw [Run.bind_of_ok hadvance]
  simp only [htext]
  rfl

theorem expect_of_rest {kind : TokenKind} (hrest : cursor.rest tokens = token :: others)
    (hkind : token.kind = kind) :
    expect tokens kind cursor = .ok token.lexeme { cursor with index := cursor.index + 1 } := by
  have hnext : cursor.next? tokens = some token := by
    rw [Cursor.next?_eq, hrest, List.head?_cons]
  unfold expect
  rw [Run.get_bind, hnext]
  simp only [hkind, beq_self_eq_true, if_true]
  rfl

theorem fail_eq {α : Type} {what : Expected} : fail (α := α) tokens what cursor =
    .error (.syntaxError ⟨.expected what, cursor.index, cursor.next? tokens⟩) cursor := rfl

theorem expect_of_not {kind : TokenKind} (hnext : Reader.nextIs kind (cursor.rest tokens) = false) :
    expect tokens kind cursor = .error
      (.syntaxError ⟨.expected (.token kind), cursor.index, cursor.next? tokens⟩) cursor := by
  rw [← Cursor.nextIs_eq, Cursor.nextIs] at hnext
  unfold expect
  rw [Run.get_bind]
  cases htoken : cursor.next? tokens with
  | none =>
    change fail tokens (.token kind) cursor = _
    rw [fail_eq, htoken]
  | some token =>
    change (if token.kind == kind then _ else _ : Rule Lexeme) cursor = _
    rw [if_neg (by simpa [htoken] using hnext), fail_eq, htoken]

theorem accept_of_rest {kind : TokenKind} (hrest : cursor.rest tokens = token :: others)
    (hkind : token.kind = kind) :
    accept tokens kind cursor = .ok true { cursor with index := cursor.index + 1 } := by
  have hnext : cursor.nextIs tokens kind = true := by simpa [Cursor.nextIs_eq, hrest] using hkind
  unfold accept
  rw [Run.get_bind, if_pos hnext]
  rfl

theorem accept_of_not {kind : TokenKind} (hnext : Reader.nextIs kind (cursor.rest tokens) = false) :
    accept tokens kind cursor = .ok false cursor := by
  rw [← Cursor.nextIs_eq] at hnext
  unfold accept
  rw [Run.get_bind, if_neg (by simp [hnext])]
  rfl

theorem assignment_of_rest (hrest : cursor.rest tokens = token :: others)
    (hname : token.kind = .identifier) :
    assignment tokens level cursor =
      assignmentBody tokens level token.lexeme { cursor with index := cursor.index + 1 } :=
  Run.bind_of_ok (expect_of_rest hrest hname)

end Rule

section

variable {tokens : Array Token} {level : Level} {level' : ReaderLevel} {cursor : Cursor}

theorem startsDeclaration_eq :
    (cursor.nextIsKeyword tokens "let" || cursor.nextIsKeyword tokens "mut") =
      (Reader.declKeyword? (cursor.rest tokens)).isSome := by
  rw [Cursor.nextIsKeyword_eq, Cursor.nextIsKeyword_eq, Reader.declKeyword?]
  split
  · next hlet => rw [hlet, Bool.true_or, Option.isSome_some]
  · split <;> simp_all

theorem statement_of_declKeyword? {keyword : DeclKeyword}
    (hkeyword : Reader.declKeyword? (cursor.rest tokens) = some keyword) :
    Rule.statement tokens level cursor =
      Rule.declarationBody tokens level keyword { cursor with index := cursor.index + 1 } := by
  obtain ⟨token, others, hrest, hword⟩ := Reader.exists_of_declKeyword? hkeyword
  unfold Rule.statement
  rw [Run.get_bind, startsDeclaration_eq, hkeyword, if_pos Option.isSome_some]
  exact Rule.declaration_of_rest hrest hword

theorem startsAssignment_eq : (cursor.nextIs tokens .identifier && cursor.secondIs tokens .assignment) =
    Reader.startsAssignment (cursor.rest tokens) := by
  rw [Cursor.nextIs_eq, Cursor.secondIs_eq, Reader.startsAssignment]

theorem statement_of_startsAssignment (hkeyword : Reader.declKeyword? (cursor.rest tokens) = none)
    {token : Token} {others : List Token} (hrest : cursor.rest tokens = token :: others)
    (hstarts : Reader.startsAssignment (cursor.rest tokens) = true) :
    Rule.statement tokens level cursor = Rule.assignmentBody tokens level token.lexeme
      { cursor with index := cursor.index + 1 } := by
  have hname : token.kind = .identifier := by
    rw [hrest, Reader.startsAssignment, Bool.and_eq_true] at hstarts
    simpa using hstarts.1
  unfold Rule.statement
  rw [Run.get_bind, startsDeclaration_eq, hkeyword, if_neg (by simp), startsAssignment_eq,
    if_pos hstarts]
  exact Rule.assignment_of_rest hrest hname

theorem statement_of_expression (hkeyword : Reader.declKeyword? (cursor.rest tokens) = none)
    (hstarts : Reader.startsAssignment (cursor.rest tokens) = false) :
    Rule.statement tokens level cursor = Rule.expressionStatement tokens level cursor := by
  unfold Rule.statement
  rw [Run.get_bind, startsDeclaration_eq, hkeyword, if_neg (by simp), startsAssignment_eq,
    if_neg (by simp [hstarts])]

/-- A syntax error of an expression statement is that of its expression, or the expression was read
and the semicolon is missing. -/
theorem error_of_expressionStatement {error : SyntaxError} {after : Cursor}
    (hrun : Rule.expressionStatement tokens level cursor = .error (.syntaxError error) after) :
    level.expression cursor = .error (.syntaxError error) after ∨
      (∃ tree, level.expression cursor = .ok tree after) ∧
        error = ⟨.expected (.token .semicolon), after.index, after.next? tokens⟩ := by
  rcases Run.of_bind_eq_error hrun with hstop | ⟨tree, middle, htree, hend⟩
  · exact .inl hstop
  · right
    cases hsemicolon : Reader.nextIs .semicolon (middle.rest tokens) with
    | true =>
      obtain ⟨semicolon, others, hrest, hkind⟩ := Reader.exists_of_nextIs hsemicolon
      split at hend
      · rw [Run.bind_of_ok (Rule.accept_of_rest hrest hkind)] at hend
        cases hend
      · rw [Run.bind_of_ok (Rule.expect_of_rest hrest hkind)] at hend
        cases hend
    | false =>
      split at hend
      · rw [Run.bind_of_ok (Rule.accept_of_not hsemicolon)] at hend
        cases hend
      · rw [Run.bind_of_error (Rule.expect_of_not hsemicolon)] at hend
        cases hend
        exact ⟨⟨tree, htree⟩, rfl⟩

variable (htype : Follows tokens level.type level'.type)
  (hexpression : Follows tokens level.expression level'.expression)

include hexpression

theorem follows_assignmentBody (name : Lexeme) :
    Follows tokens (Rule.assignmentBody tokens level name) (Reader.assignmentBody level' name) := by
  intro cursor
  refine FollowsAt.bind (follows_expect .assignment cursor) fun _ after _ _ ↦ ?_
  refine FollowsAt.bind (hexpression after) fun _ after _ _ ↦ ?_
  exact FollowsAt.bind (follows_expect .semicolon after) fun _ _ _ _ ↦ FollowsAt.pure _

theorem follows_assignment :
    Follows tokens (Rule.assignment tokens level) (Reader.assignment level') := by
  intro cursor
  exact FollowsAt.bind (follows_expect .identifier cursor) fun name after _ _ ↦
    follows_assignmentBody hexpression name after

theorem follows_expressionStatement : Follows tokens (Rule.expressionStatement tokens level)
    (Reader.expressionStatement level') := by
  intro cursor
  refine FollowsAt.bind (hexpression cursor) fun expression after _ _ ↦ ?_
  split
  · exact FollowsAt.bind (follows_accept .semicolon after) fun _ _ _ _ ↦ FollowsAt.pure _
  · exact FollowsAt.bind (follows_expect .semicolon after) fun _ _ _ _ ↦ FollowsAt.pure _

include htype

theorem follows_declarationBody (keyword : DeclKeyword) :
    Follows tokens (Rule.declarationBody tokens level keyword)
      (Reader.declarationBody level' keyword) := by
  intro cursor
  refine FollowsAt.bind (follows_expect .identifier cursor) fun _ after _ _ ↦ ?_
  refine FollowsAt.bind (follows_expect .colon after) fun _ after _ _ ↦ ?_
  refine FollowsAt.bind (htype after) fun _ after _ _ ↦ ?_
  refine FollowsAt.bind (follows_expect .assignment after) fun _ after _ _ ↦ ?_
  refine FollowsAt.bind (hexpression after) fun _ after _ _ ↦ ?_
  exact FollowsAt.bind (follows_expect .semicolon after) fun _ _ _ _ ↦ FollowsAt.pure _

theorem followsAt_declaration {keyword : DeclKeyword}
    (hkeyword : Reader.declKeyword? (cursor.rest tokens) = some keyword) :
    FollowsAt tokens cursor (Rule.declaration tokens level) (Reader.declaration level' keyword) := by
  obtain ⟨token, others, hrest, hword⟩ := Reader.exists_of_declKeyword? hkeyword
  have hfollows : FollowsAt tokens cursor
      (Rule.skip >>= fun _ ↦ Rule.declarationBody tokens level keyword)
      (Reader.declaration level' keyword) :=
    FollowsAt.bind (FollowsAt.skip hrest) fun _ after _ _ ↦
      follows_declarationBody htype hexpression keyword after
  exact FollowsAt.congr hfollows (Rule.declaration_of_rest hrest hword) rfl

theorem follows_statement : Follows tokens (Rule.statement tokens level) (Reader.statement level') := by
  intro cursor
  cases hkeyword : Reader.declKeyword? (cursor.rest tokens) with
  | some keyword =>
    obtain ⟨token, others, hrest, hword⟩ := Reader.exists_of_declKeyword? hkeyword
    refine FollowsAt.congr (followsAt_declaration htype hexpression hkeyword)
      ((statement_of_declKeyword? hkeyword).trans (Rule.declaration_of_rest hrest hword).symm) ?_
    unfold Reader.statement
    rw [Run.get_bind, hkeyword]
  | none =>
    cases hstarts : Reader.startsAssignment (cursor.rest tokens) with
    | true =>
      have hnext := (Bool.and_eq_true_iff.mp hstarts).1
      obtain ⟨token, others, hrest, hname⟩ := Reader.exists_of_nextIs hnext
      refine FollowsAt.congr (follows_assignment hexpression cursor)
        ((statement_of_startsAssignment hkeyword hrest hstarts).trans
          (Rule.assignment_of_rest hrest hname).symm) ?_
      unfold Reader.statement
      rw [Run.get_bind, hkeyword]
      simp only [Run.get_bind, hstarts, if_true]
    | false =>
      refine FollowsAt.congr (follows_expressionStatement hexpression cursor)
        (statement_of_expression hkeyword hstarts) ?_
      unfold Reader.statement
      rw [Run.get_bind, hkeyword]
      simp only [Run.get_bind, hstarts]
      rfl

end

/-! ### Conditionals and expressions, given the rule for blocks -/

namespace Rule

variable (tokens : Array Token) (block : Rule Tree) (level : Level)

/-- The branches of a conditional after the first, given the rule for blocks. -/
def elseBranchesOver : Nat → Rule (List Tree)
  | 0 => return []
  | rounds + 1 => do
    let start ← get
    if start.nextIsKeyword tokens "else" && start.secondIsKeyword tokens "if" then
      skip
      skip
      let condition ← level.expression
      let body ← block
      let rest ← elseBranchesOver rounds
      return .branch condition body :: rest
    else return []

/-- The last block of a conditional, if there is one, given the rule for blocks. -/
def elseBlockOver : Rule Tree := do
  if (← get).nextIsKeyword tokens "else" then
    skip
    block
  else return .absent

/-- A conditional, given the rule for blocks. -/
def conditionalOver : Rule Tree := do
  expectKeyword tokens "if"
  let condition ← level.expression
  let body ← block
  let branches ← elseBranchesOver tokens block level tokens.size
  let otherwise ← elseBlockOver tokens block
  return .conditional condition body branches otherwise

/-- An expression, given the rule for blocks and the rules for one level further down. -/
def expressionOver : Rule Tree := do
  let cursor ← get
  if cursor.nextIs tokens .leftCurly then block
  else if cursor.nextIsKeyword tokens "if" then conditionalOver tokens block level
  else comparison tokens level

theorem elseBranches_eq (rounds : Nat) :
    elseBranches tokens level rounds =
      elseBranchesOver tokens (Rule.block tokens level) level rounds := by
  induction rounds with
  | zero => rfl
  | succ rounds ih => rw [elseBranches, elseBranchesOver, ih]

theorem expressionWith_eq :
    expressionWith tokens level = expressionOver tokens (Rule.block tokens level) level := by
  unfold expressionWith expressionOver conditional conditionalOver
  rw [elseBranches_eq]
  rfl

end Rule

section

variable {tokens : Array Token} {block : Rule Tree} {level : Level} {level' : ReaderLevel}
  (hexpression : Follows tokens level.expression level'.expression)
  (hblock : Follows tokens block (Reader.block tokens.size level'))

include hblock

theorem follows_elseBlockOver :
    Follows tokens (Rule.elseBlockOver tokens block) (Reader.elseBlock tokens.size level') := by
  intro cursor
  refine FollowsAt.get ?_
  rw [Cursor.nextIsKeyword_eq]
  split
  · next hword =>
    obtain ⟨word, others, hrest, -⟩ := Reader.exists_of_nextIsKeyword hword
    exact FollowsAt.bind (FollowsAt.skip hrest) fun _ after _ _ ↦ hblock after
  · exact FollowsAt.pure _

include hexpression

theorem follows_elseBranchesOver (more : Nat) :
    Follows tokens (Rule.elseBranchesOver tokens block level more)
      (Reader.elseBranches tokens.size level' more) := by
  induction more with
  | zero => exact fun cursor ↦ FollowsAt.pure []
  | succ more ih =>
    intro cursor
    refine FollowsAt.get ?_
    rw [Cursor.nextIsKeyword_eq, Cursor.secondIsKeyword_eq]
    refine FollowsAt.congr ?_ rfl Run.get_bind
    split
    · next hwords =>
      obtain ⟨helse, hif⟩ := Bool.and_eq_true_iff.mp hwords
      obtain ⟨elseWord, others, hrest, -⟩ := Reader.exists_of_nextIsKeyword helse
      rw [hrest] at hif
      obtain ⟨ifWord, others, rfl, -⟩ := Reader.exists_of_secondIsKeyword hif
      refine FollowsAt.bind (FollowsAt.skip hrest) fun _ after hskip _ ↦ ?_
      rw [hrest, Reader.skip_cons] at hskip
      have hafter : after.rest tokens = ifWord :: others := by
        injection hskip with _ hrest
        exact hrest.symm
      refine FollowsAt.bind (FollowsAt.skip hafter) fun _ after _ _ ↦ ?_
      refine FollowsAt.bind (hexpression after) fun _ after _ _ ↦ ?_
      refine FollowsAt.bind (hblock after) fun _ after _ _ ↦ ?_
      exact FollowsAt.bind (ih after) fun _ _ _ _ ↦ FollowsAt.pure _
    · exact FollowsAt.pure []

theorem follows_conditionalOver :
    Follows tokens (Rule.conditionalOver tokens block level)
      (Reader.conditional tokens.size level') := by
  intro cursor
  refine FollowsAt.bind (follows_expectKeyword "if" cursor) fun _ after _ _ ↦ ?_
  refine FollowsAt.bind (hexpression after) fun _ after _ _ ↦ ?_
  refine FollowsAt.bind (hblock after) fun _ after _ _ ↦ ?_
  refine FollowsAt.bind (follows_elseBranchesOver hexpression hblock tokens.size after)
    fun _ after _ _ ↦ ?_
  exact FollowsAt.bind (follows_elseBlockOver hblock after) fun _ _ _ _ ↦ FollowsAt.pure _

/-- An expression follows the reader for expressions if its blocks follow the reader for blocks. -/
theorem follows_expressionOver :
    Follows tokens (Rule.expressionOver tokens block level)
      (Reader.expressionWith tokens.size level') := by
  intro cursor
  refine FollowsAt.get ?_
  rw [Cursor.nextIs_eq, Cursor.nextIsKeyword_eq]
  split
  · exact hblock cursor
  · refine FollowsAt.congr ?_ rfl Run.get_bind
    split
    · exact follows_conditionalOver hexpression hblock cursor
    · exact follows_comparison hexpression cursor

end

end LetLang
