import LetLang.Proofs.Grammar.Progress

/-!
# A parser that counts its levels

The rules of the grammar are told how many levels they may still open, and there is nothing that
could be left wrong when one of them fails. Beside them stands a parser that keeps count in its
state (`Gauge`): a rule that opens a level adds to the count, which is checked against the limit
first, and takes from it on every way out (`Counted.nested`). The state also has the greatest count
and the furthest index there ever were, so that it can be said what they were while a rule ran.

The two do the same (`Tallies`). Started with as many levels open as the limit leaves out, a counted
rule comes to what the rule does and ends with as many levels open as before; in between there were
never more than the limit allows, and the cursor was never beyond the tokens. The relation composes
along `bind`, and only two lemmas are about counting: with no level left the check fails
(`Tallies.refused`), otherwise what is opened is closed again (`Tallies.opened`). Where the cursor
may go is known from what the rules take (`Consumes`): that is asked of each move past a token, and
of what is remembered.
-/

set_option autoImplicit false

namespace LetLang

/-! ### Counted rules -/

/-- The state of a parser that counts: its cursor, the number of levels that are open, the greatest
number that ever were, and the furthest index at which the cursor ever was. -/
structure Gauge where
  cursor : Cursor := {}
  depth : Nat := 0
  deepest : Nat := 0
  furthest : Nat := 0

namespace Gauge

/-- One more level is open. -/
def entered (gauge : Gauge) : Gauge :=
  { gauge with depth := gauge.depth + 1, deepest := max gauge.deepest (gauge.depth + 1) }

/-- One level less is open. -/
def left (gauge : Gauge) : Gauge := { gauge with depth := gauge.depth - 1 }

/-- The cursor is another one. -/
def moved (gauge : Gauge) (cursor : Cursor) : Gauge :=
  { gauge with cursor := cursor, furthest := max gauge.furthest cursor.index }

/-- The cursor is among the tokens and never was beyond them, what it remembers lies among them too,
and there are and were never more levels open than the limit allows. -/
structure Sound (tokens : Array Token) (gauge : Gauge) : Prop where
  cursor : gauge.cursor.Trusted tokens (Spans tokens)
  depth : gauge.depth ≤ nestingLimit
  deepest : gauge.deepest ≤ nestingLimit
  furthest : gauge.furthest ≤ tokens.size

theorem Sound.moved {tokens : Array Token} {gauge : Gauge} (hgauge : gauge.Sound tokens)
    {cursor : Cursor} (hcursor : cursor.Trusted tokens (Spans tokens)) :
    (gauge.moved cursor).Sound tokens :=
  ⟨hcursor, hgauge.depth, hgauge.deepest, Nat.max_le.mpr ⟨hgauge.furthest, hcursor.bound⟩⟩

end Gauge

/-- A rule of the grammar, as a program that counts its levels. -/
abbrev Counted (α : Type) : Type := EStateM ParseFailure Gauge α

/-- The counted rules that other rules call for the expressions and types inside them. -/
structure CountedLevel where
  type : Counted Tree
  expression : Counted Tree

namespace Counted

variable {α : Type}

/-- A rule that opens no level. -/
def step (rule : Rule α) : Counted α := fun gauge =>
  match rule gauge.cursor with
  | .ok value after => .ok value (gauge.moved after)
  | .error failure after => .error failure (gauge.moved after)

/-- The cursor. -/
def look : Counted Cursor := fun gauge => .ok gauge.cursor gauge

/-- Tries a rule, moving the cursor back if it meets a syntax error. The count is left alone. -/
def speculate (rule : Counted α) : Counted (Except SyntaxError α) := fun gauge =>
  match rule gauge with
  | .ok value after => .ok (.ok value) after
  | .error (.syntaxError error) after =>
    let event := Event.rewound after.cursor.index gauge.cursor.index error.diagnostic.message
    .ok (.error error) (after.moved { after.cursor with
      index := gauge.cursor.index
      trace := event :: after.cursor.trace })
  | .error failure after => .error failure after

/-- Runs a rule unless its outcome at this index is known already, and remembers the outcome if it
is a tree or a syntax error. -/
def remembered (rule : Counted Tree) : Counted Tree := fun gauge =>
  match gauge.cursor.memo[gauge.cursor.index]? with
  | some (.parsed tree stop) => .ok tree (gauge.moved { gauge.cursor with index := stop })
  | some (.failed error) => .error (.syntaxError error) gauge
  | none =>
    match rule gauge with
    | .ok tree after =>
      .ok tree (after.moved { after.cursor with
        memo := after.cursor.memo.insert gauge.cursor.index (.parsed tree after.cursor.index) })
    | .error (.syntaxError error) after =>
      .error (.syntaxError error) (after.moved { after.cursor with
        memo := after.cursor.memo.insert gauge.cursor.index (.failed error) })
    | .error failure after => .error failure after

variable (tokens : Array Token)

/-- Opens a level for a rule and closes it when the rule ends, however it ends. Where the limit is
reached already, it fails instead. -/
def nested (rule : Counted α) : Counted α := fun gauge =>
  if nestingLimit ≤ gauge.depth then step (Rule.tooDeep tokens) gauge
  else
    match rule gauge.entered with
    | .ok value after => .ok value after.left
    | .error failure after => .error failure after.left

/-! ### Lists and types -/

/-- Items that each follow a comma. -/
def afterCommas (item : Counted α) : Nat → Counted (List α)
  | 0 => return []
  | rounds + 1 => do
    if ← step (Rule.accept tokens .comma) then
      let first ← item
      let rest ← afterCommas item rounds
      return first :: rest
    else return []

/-- Items in parentheses, with commas between them; there may be none. -/
def listed (item : Counted α) : Counted (List α) := do
  let _ ← step (Rule.expect tokens .leftParen)
  if (← look).nextIs tokens .rightParen then
    let _ ← step (Rule.expect tokens .rightParen)
    return []
  else
    let first ← item
    let rest ← afterCommas tokens item tokens.size
    let _ ← step (Rule.expect tokens .rightParen)
    return first :: rest

/-- A type, given the rule for a function type. -/
def typeWith (function : Counted Tree) : Counted Tree := do
  match (← look).next? tokens with
  | some token =>
    if token.kind == .dataType then
      step Rule.skip
      match token.lexeme.bind DataType.ofName? with
      | some name => return .basicType name
      | none => throw (.unknownDataType token.lexeme)
    else if token.kind == .leftParen then function
    else step (Rule.fail tokens .type)
  | none => step (Rule.fail tokens .type)

/-- A parameter, given the rule for its type. -/
def parameter (type : Counted Tree) : Counted Tree := do
  let name ← step (Rule.expect tokens .identifier)
  let _ ← step (Rule.expect tokens .colon)
  return .parameter name (← type)

/-- A function type, given the rule for the types in it. -/
def functionType (type : Counted Tree) : Counted Tree := do
  let parameters ← listed tokens (parameter tokens type)
  let _ ← step (Rule.expect tokens .arrow)
  return .functionType parameters (← type)

/-- A type. At most `calls` calls are made inside each other; with more of them than there can be
levels, it is the count that ends the nesting. -/
def type : Nat → Counted Tree
  | 0 => throw .outOfRange
  | calls + 1 => typeWith tokens (nested tokens (functionType tokens (type calls)))

/-! ### Expressions -/

/-- A literal, a name, a call or an expression in parentheses. -/
def factor (level : CountedLevel) : Counted Tree := do
  match (← look).next? tokens with
  | some token =>
    if token.kind == .numberLiteral then
      step Rule.skip
      return .literal token.lexeme
    else if token.kind.isLiteral then step (Rule.typedLiteral token)
    else if token.kind == .identifier then
      step Rule.skip
      if (← look).nextIs tokens .leftParen then
        return .call token.lexeme (← listed tokens level.expression)
      else return .identifier token.lexeme
    else if token.kind == .leftParen then
      step Rule.skip
      let inner ← level.expression
      let _ ← step (Rule.expect tokens .rightParen)
      return .parenthesized inner
    else step (Rule.fail tokens .expression)
  | none => step (Rule.fail tokens .expression)

/-- Operations on what was read so far, one after the other, as long as their operators follow. -/
def chain (operation? : TokenKind → Option ArithOp) (operand : Counted Tree) :
    Nat → Tree → Counted Tree
  | 0, left => return left
  | rounds + 1, left => do
    match ((← look).next? tokens).bind (operation? ·.kind) with
    | some op =>
      step Rule.skip
      let right ← operand
      chain operation? operand rounds (.arith op left right)
    | none => return left

/-- A product or quotient of factors, of which the first may have its sign changed. -/
def term (level : CountedLevel) : Counted Tree := do
  if ← step (Rule.accept tokens .minus) then
    let first ← factor tokens level
    chain tokens multiplicativeOp? (factor tokens level) tokens.size (.negation first)
  else
    let first ← factor tokens level
    chain tokens multiplicativeOp? (factor tokens level) tokens.size first

/-- A sum or difference of terms. -/
def additive (level : CountedLevel) : Counted Tree := do
  let first ← term tokens level
  chain tokens additiveOp? (term tokens level) tokens.size first

/-- A sum, or a comparison of two. -/
def comparison (level : CountedLevel) : Counted Tree := do
  let left ← additive tokens level
  match (← look).next? tokens with
  | some token =>
    if token.kind.isComparison then
      step Rule.skip
      match CompareOp.ofKind? token.kind with
      | some op =>
        let right ← additive tokens level
        return .comparison left op right
      | none => throw (.noOperator token.kind)
    else return left
  | none => return left

/-! ### Statements -/

/-- A declaration, whose keyword is the token that the cursor moves past. -/
def declaration (level : CountedLevel) : Counted Tree := do
  match ← step (Rule.advance tokens) with
  | none => throw .noToken
  | some token =>
    match token.lexeme.bind DeclKeyword.ofText? with
    | none => throw (.unknownKeyword token.lexeme)
    | some keyword =>
      let name ← step (Rule.expect tokens .identifier)
      let _ ← step (Rule.expect tokens .colon)
      let type ← level.type
      let _ ← step (Rule.expect tokens .assignment)
      let value ← level.expression
      let _ ← step (Rule.expect tokens .semicolon)
      return .declaration keyword name type value

/-- An assignment. -/
def assignment (level : CountedLevel) : Counted Tree := do
  let name ← step (Rule.expect tokens .identifier)
  let _ ← step (Rule.expect tokens .assignment)
  let value ← level.expression
  let _ ← step (Rule.expect tokens .semicolon)
  return .assignment name value

/-- An expression as a statement. The semicolon after a braced one may be left out. -/
def expressionStatement (level : CountedLevel) : Counted Tree := do
  let expression ← level.expression
  if expression.isBraced then
    let _ ← step (Rule.accept tokens .semicolon)
    return .statement expression
  else
    let _ ← step (Rule.expect tokens .semicolon)
    return .statement expression

/-- A statement of any sort. -/
def statement (level : CountedLevel) : Counted Tree := do
  let cursor ← look
  if cursor.nextIsKeyword tokens "let" || cursor.nextIsKeyword tokens "mut" then
    declaration tokens level
  else if cursor.nextIs tokens .identifier && cursor.secondIs tokens .assignment then
    assignment tokens level
  else expressionStatement tokens level

/-! ### Blocks and conditionals -/

/-- The expression that ends a block, after the attempt to read a statement there failed with the
given error. -/
def trailing (level : CountedLevel) (statementError : SyntaxError) : Counted Tree := fun gauge =>
  match level.expression gauge with
  | .ok tree after =>
    if after.cursor.nextIs tokens .rightCurly then .ok tree after
    else .error (.syntaxError statementError) after
  | .error (.syntaxError error) after =>
    if statementError.position < error.position then .error (.syntaxError error) after
    else .error (.syntaxError statementError) after
  | .error failure after => .error failure after

/-- The statements of a block and the expression that ends them, if there is one. -/
def blockElements (level : CountedLevel) : Nat → Counted (List Tree × Tree)
  | 0 => return ([], .absent)
  | rounds + 1 => do
    let start ← look
    if start.nextIs tokens .rightCurly || start.atEnd tokens then return ([], .absent)
    else
      match ← speculate (statement tokens level) with
      | .error error => return ([], ← trailing tokens level error)
      | .ok element =>
        match ← step (Rule.blockResult? tokens element) with
        | some result => return ([], result)
        | none =>
          let (rest, result) ← blockElements level rounds
          return (element :: rest, result)

/-- A block. -/
def block (level : CountedLevel) : Counted Tree := do
  let _ ← step (Rule.expect tokens .leftCurly)
  let (statements, result) ← blockElements tokens level tokens.size
  let _ ← step (Rule.expect tokens .rightCurly)
  return .block statements result

/-- The branches of a conditional after the first. -/
def elseBranches (level : CountedLevel) : Nat → Counted (List Tree)
  | 0 => return []
  | rounds + 1 => do
    let start ← look
    if start.nextIsKeyword tokens "else" && start.secondIsKeyword tokens "if" then
      step Rule.skip
      step Rule.skip
      let condition ← level.expression
      let body ← block tokens level
      let rest ← elseBranches level rounds
      return .branch condition body :: rest
    else return []

/-- The last block of a conditional, if there is one. -/
def elseBlock (level : CountedLevel) : Counted Tree := do
  if (← look).nextIsKeyword tokens "else" then
    step Rule.skip
    block tokens level
  else return .absent

/-- A conditional. -/
def conditional (level : CountedLevel) : Counted Tree := do
  step (Rule.expectKeyword tokens "if")
  let condition ← level.expression
  let body ← block tokens level
  let branches ← elseBranches tokens level tokens.size
  let otherwise ← elseBlock tokens level
  return .conditional condition body branches otherwise

/-! ### The knot -/

/-- What an expression is, one level further down. -/
def expressionWith (level : CountedLevel) : Counted Tree := do
  let cursor ← look
  if cursor.nextIs tokens .leftCurly then block tokens level
  else if cursor.nextIsKeyword tokens "if" then conditional tokens level
  else comparison tokens level

/-- An expression, with at most `calls` calls inside each other. -/
def expression : Nat → Counted Tree
  | 0 => throw .outOfRange
  | calls + 1 =>
    remembered (nested tokens (expressionWith tokens ⟨type tokens calls, expression calls⟩))

/-- The counted rules with one call more than there can be levels. -/
def level : CountedLevel :=
  ⟨type tokens (nestingLimit + 1), expression tokens (nestingLimit + 1)⟩

/-- Statements up to the end of the input. -/
def statements (level : CountedLevel) : Nat → Counted (List Tree)
  | 0 => return []
  | rounds + 1 => do
    if (← look).atEnd tokens then return []
    else
      let first ← statement tokens level
      let rest ← statements level rounds
      return first :: rest

/-- A whole program. -/
def program (level : CountedLevel) : Counted Tree := do
  let found ← statements tokens level tokens.size
  step (Rule.record (.parsed found.length))
  return .program found

end Counted

/-- The counted rule of a name. -/
def RuleName.counted (tokens : Array Token) : RuleName → Counted Yield
  | program => do return .tree (← Counted.program tokens (Counted.level tokens))
  | statement => do return .tree (← Counted.statement tokens (Counted.level tokens))
  | declaration => do return .tree (← Counted.declaration tokens (Counted.level tokens))
  | assignment => do return .tree (← Counted.assignment tokens (Counted.level tokens))
  | type => do return .tree (← (Counted.level tokens).type)
  | parameter => do return .tree (← Counted.parameter tokens (Counted.level tokens).type)
  | parameterList => do
    return .trees (← Counted.listed tokens (Counted.parameter tokens (Counted.level tokens).type))
  | expression => do return .tree (← (Counted.level tokens).expression)
  | additive => do return .tree (← Counted.additive tokens (Counted.level tokens))
  | term => do return .tree (← Counted.term tokens (Counted.level tokens))
  | factor => do return .tree (← Counted.factor tokens (Counted.level tokens))
  | arguments => do return .trees (← Counted.listed tokens (Counted.level tokens).expression)
  | block => do return .tree (← Counted.block tokens (Counted.level tokens))
  | conditional => do return .tree (← Counted.conditional tokens (Counted.level tokens))

/-! ### Counting changes nothing else -/

/-- The outcome of a rule, in a parser with the given counts. -/
def Counted.placed {α : Type} (depth deepest furthest : Nat) :
    EStateM.Result ParseFailure Cursor α → EStateM.Result ParseFailure Gauge α
  | .ok value after => .ok value ⟨after, depth, deepest, furthest⟩
  | .error failure after => .error failure ⟨after, depth, deepest, furthest⟩

section

variable {α : Type} (tokens : Array Token) (levels : Nat)

/-- Started in a sound state with `levels` levels left below the limit, the counted rule comes to
what the rule does and leaves a sound state with as many levels open as at the start. -/
def TalliesAt (gauge : Gauge) (counted : Counted α) (rule : Rule α) : Prop :=
  gauge.Sound tokens → gauge.depth + levels = nestingLimit →
    ∃ deepest furthest,
      (Gauge.mk (cursorAfter (rule gauge.cursor)) gauge.depth deepest furthest).Sound tokens ∧
        counted gauge = Counted.placed gauge.depth deepest furthest (rule gauge.cursor)

/-- The counted rule does what the rule does, wherever it is started. -/
def Tallies (counted : Counted α) (rule : Rule α) : Prop :=
  ∀ gauge, TalliesAt tokens levels gauge counted rule

end

section

variable {α β : Type} {tokens : Array Token} {levels least : Nat} {gauge : Gauge}

namespace TalliesAt

theorem step {rule : Rule α} (hrule : ConsumesAt tokens least gauge.cursor rule) :
    TalliesAt tokens levels gauge (Counted.step rule) rule := by
  intro hgauge _
  refine ⟨gauge.deepest, max gauge.furthest (cursorAfter (rule gauge.cursor)).index, ?_, ?_⟩
  · exact hgauge.moved (hrule.trusted hgauge.cursor)
  · unfold Counted.step
    cases rule gauge.cursor with
    | ok value after => rfl
    | error failure after => rfl

theorem pure (value : α) :
    TalliesAt tokens levels gauge (Pure.pure value) (Pure.pure value) :=
  fun hgauge _ ↦ ⟨gauge.deepest, gauge.furthest, hgauge, rfl⟩

theorem throw (failure : ParseFailure) :
    TalliesAt tokens levels gauge (throwThe ParseFailure failure : Counted α)
      (throwThe ParseFailure failure) :=
  fun hgauge _ ↦ ⟨gauge.deepest, gauge.furthest, hgauge, rfl⟩

theorem fail (what : Expected) :
    TalliesAt tokens levels gauge (Counted.step (Rule.fail tokens what) : Counted α)
      (Rule.fail tokens what) :=
  have hfail : ConsumesAt tokens 0 gauge.cursor (Rule.fail tokens what : Rule α) := .fail what
  step hfail

theorem look {next : Cursor → Counted β} {next' : Cursor → Rule β}
    (hnext : TalliesAt tokens levels gauge (next gauge.cursor) (next' gauge.cursor)) :
    TalliesAt tokens levels gauge (Counted.look >>= next) (get >>= next') := hnext

theorem bind {counted : Counted α} {rule : Rule α} {next : α → Counted β} {next' : α → Rule β}
    (hfirst : TalliesAt tokens levels gauge counted rule)
    (hnext : ∀ value after, rule gauge.cursor = .ok value after.cursor →
      TalliesAt tokens levels after (next value) (next' value)) :
    TalliesAt tokens levels gauge (counted >>= next) (rule >>= next') := by
  intro hgauge hlevels
  obtain ⟨middle, reached, hsound, hrun⟩ := hfirst hgauge hlevels
  cases hrule : rule gauge.cursor with
  | error failure after =>
    rw [hrule] at hrun hsound
    refine ⟨middle, reached, ?_, ?_⟩
    · rw [Run.bind_of_error hrule]
      exact hsound
    · rw [Run.bind_of_error hrun, Run.bind_of_error hrule]
      rfl
  | ok value after =>
    rw [hrule] at hrun hsound
    obtain ⟨deepest, furthest, hlast, hend⟩ :=
      hnext value ⟨after, gauge.depth, middle, reached⟩ hrule hsound hlevels
    refine ⟨deepest, furthest, ?_, ?_⟩
    · rw [Run.bind_of_ok hrule]
      exact hlast
    · rw [Run.bind_of_ok hrun, Run.bind_of_ok hrule, hend]

end TalliesAt

namespace Tallies

theorem step {rule : Rule α} (hrule : Consumes tokens least rule) :
    Tallies tokens levels (Counted.step rule) rule :=
  fun gauge ↦ .step (hrule gauge.cursor)

theorem pure (value : α) : Tallies tokens levels (Pure.pure value) (Pure.pure value) :=
  fun _ ↦ .pure value

theorem throw (failure : ParseFailure) :
    Tallies tokens levels (throwThe ParseFailure failure : Counted α)
      (throwThe ParseFailure failure) :=
  fun _ ↦ .throw failure

theorem bind {counted : Counted α} {rule : Rule α} {next : α → Counted β} {next' : α → Rule β}
    (hfirst : Tallies tokens levels counted rule)
    (hnext : ∀ value, Tallies tokens levels (next value) (next' value)) :
    Tallies tokens levels (counted >>= next) (rule >>= next') :=
  fun gauge ↦ (hfirst gauge).bind fun value after _ ↦ hnext value after

theorem expect {kind : TokenKind} (hkind : kind ≠ .endOfStream) :
    Tallies tokens levels (Counted.step (Rule.expect tokens kind)) (Rule.expect tokens kind) :=
  step (.expect hkind)

theorem accept {kind : TokenKind} (hkind : kind ≠ .endOfStream) :
    Tallies tokens levels (Counted.step (Rule.accept tokens kind)) (Rule.accept tokens kind) :=
  step (.accept hkind)

/-- With no level left, the check fails, whatever the level is for. -/
theorem refused (body : Counted α) :
    Tallies tokens 0 (Counted.nested tokens body) (Rule.tooDeep tokens) := by
  intro gauge hgauge hlevels
  have htooDeep : ConsumesAt tokens 0 gauge.cursor (Rule.tooDeep tokens : Rule α) := .tooDeep
  rw [Counted.nested, if_pos (by omega)]
  exact TalliesAt.step htooDeep hgauge hlevels

/-- A level that is opened is closed again, on every way out. -/
theorem opened {body : Counted α} {rule : Rule α} (hbody : Tallies tokens levels body rule) :
    Tallies tokens (levels + 1) (Counted.nested tokens body) rule := by
  intro gauge hgauge hlevels
  have hlimit : gauge.depth + 1 ≤ nestingLimit := by omega
  have hentered : gauge.entered.Sound tokens :=
    ⟨hgauge.cursor, hlimit, Nat.max_le.mpr ⟨hgauge.deepest, hlimit⟩, hgauge.furthest⟩
  have hleft : gauge.entered.depth + levels = nestingLimit := by
    simp only [Gauge.entered]
    omega
  obtain ⟨deepest, furthest, hsound, hrun⟩ := hbody gauge.entered hentered hleft
  refine ⟨deepest, furthest, ⟨hsound.cursor, hgauge.depth, hsound.deepest, hsound.furthest⟩, ?_⟩
  rw [Counted.nested, if_neg (by omega), hrun]
  change (match Counted.placed (gauge.depth + 1) deepest furthest (rule gauge.cursor) with
    | .ok value after => _
    | .error failure after => _ : EStateM.Result ParseFailure Gauge α) = _
  cases rule gauge.cursor with
  | ok value after => rfl
  | error failure after => rfl

theorem speculate {counted : Counted α} {rule : Rule α}
    (hrule : Tallies tokens levels counted rule) :
    Tallies tokens levels (Counted.speculate counted) (Rule.speculate rule) := by
  intro gauge hgauge hlevels
  obtain ⟨deepest, furthest, hsound, hrun⟩ := hrule gauge hgauge hlevels
  unfold Counted.speculate Rule.speculate
  rw [hrun]
  cases hend : rule gauge.cursor with
  | ok value after =>
    rw [hend] at hsound
    exact ⟨deepest, furthest, hsound, rfl⟩
  | error failure after =>
    rw [hend] at hsound
    cases failure with
    | syntaxError error =>
      exact ⟨deepest, _, hsound.moved ⟨hgauge.cursor.bound, hsound.cursor.memo⟩, rfl⟩
    | _ => exact ⟨deepest, furthest, hsound, rfl⟩

theorem remembered {counted : Counted Tree} {rule : Rule Tree}
    (hrule : Tallies tokens levels counted rule) (hconsumes : Consumes tokens 1 rule) :
    Tallies tokens levels (Counted.remembered counted) (Rule.remembered rule) := by
  intro gauge hgauge hlevels
  have hcursor := (hconsumes.remembered gauge.cursor).trusted hgauge.cursor
  revert hcursor
  unfold Counted.remembered Rule.remembered
  cases gauge.cursor.memo[gauge.cursor.index]? with
  | some found =>
    intro hcursor
    cases found with
    | parsed tree stop => exact ⟨gauge.deepest, _, hgauge.moved hcursor, rfl⟩
    | failed error => exact ⟨gauge.deepest, gauge.furthest, hgauge, rfl⟩
  | none =>
    obtain ⟨deepest, furthest, hsound, hrun⟩ := hrule gauge hgauge hlevels
    dsimp only
    rw [hrun]
    cases hend : rule gauge.cursor with
    | ok tree after =>
      rw [hend] at hsound
      exact fun hcursor ↦ ⟨deepest, _, hsound.moved hcursor, rfl⟩
    | error failure after =>
      rw [hend] at hsound
      cases failure with
      | syntaxError error => exact fun hcursor ↦ ⟨deepest, _, hsound.moved hcursor, rfl⟩
      | _ => exact fun _ ↦ ⟨deepest, furthest, hsound, rfl⟩

end Tallies

/-! ### The rules of the grammar -/

open Tallies

theorem tallies_afterCommas {item : Counted α} {item' : Rule α}
    (hitem : Tallies tokens levels item item') (rounds : Nat) :
    Tallies tokens levels (Counted.afterCommas tokens item rounds)
      (Rule.afterCommas tokens item' rounds) := by
  induction rounds with
  | zero => exact .pure []
  | succ rounds ih =>
    refine .bind (accept (by decide)) fun found ↦ ?_
    cases found with
    | true => exact .bind hitem fun _ ↦ .bind ih fun _ ↦ .pure _
    | false => exact .pure []

theorem tallies_listed {item : Counted α} {item' : Rule α}
    (hitem : Tallies tokens levels item item') :
    Tallies tokens levels (Counted.listed tokens item) (Rule.listed tokens item') := by
  refine .bind (expect (by decide)) fun _ gauge ↦ .look ?_
  cases gauge.cursor.nextIs tokens .rightParen with
  | true => exact bind (expect (by decide)) (fun _ ↦ .pure []) gauge
  | false =>
    refine bind hitem (fun _ ↦ bind (tallies_afterCommas hitem _) fun _ ↦ ?_) gauge
    exact bind (expect (by decide)) fun _ ↦ .pure _

theorem tallies_typeWith {function : Counted Tree} {function' : Rule Tree}
    (hfunction : Tallies tokens levels function function') :
    Tallies tokens levels (Counted.typeWith tokens function) (Rule.typeWith tokens function') := by
  refine fun gauge ↦ .look ?_
  rw [Cursor.next?_eq]
  cases hrest : gauge.cursor.rest tokens with
  | nil => exact .fail _
  | cons token others =>
    simp only [List.head?_cons]
    split
    · next htoken =>
      refine .bind (.step (.skip hrest (by simp [beq_iff_eq.mp htoken]))) fun _ _ _ ↦ ?_
      cases token.lexeme.bind DataType.ofName? with
      | some name => exact .pure _
      | none => exact .throw _
    split
    · exact hfunction gauge
    · exact .fail _

theorem tallies_parameter {type : Counted Tree} {type' : Rule Tree}
    (htype : Tallies tokens levels type type') :
    Tallies tokens levels (Counted.parameter tokens type) (Rule.parameter tokens type') :=
  .bind (expect (by decide)) fun _ ↦ .bind (expect (by decide)) fun _ ↦ .bind htype fun _ ↦ .pure _

theorem tallies_functionType {type : Counted Tree} {type' : Rule Tree}
    (htype : Tallies tokens levels type type') :
    Tallies tokens levels (Counted.functionType tokens type) (Rule.functionType tokens type') :=
  .bind (tallies_listed (tallies_parameter htype)) fun _ ↦ .bind (expect (by decide)) fun _ ↦
    .bind htype fun _ ↦ .pure _

theorem tallies_type (levels : Nat) : ∀ calls, levels < calls →
    Tallies tokens levels (Counted.type tokens calls) (Rule.typeRule tokens levels) := by
  induction levels with
  | zero =>
    intro calls hcalls
    obtain ⟨calls, rfl⟩ : ∃ less, calls = less + 1 := ⟨calls - 1, by omega⟩
    exact tallies_typeWith (.refused _)
  | succ levels ih =>
    intro calls hcalls
    obtain ⟨calls, rfl⟩ : ∃ less, calls = less + 1 := ⟨calls - 1, by omega⟩
    exact tallies_typeWith (.opened (tallies_functionType (ih calls (by omega))))

theorem tallies_chain {operation? : TokenKind → Option ArithOp} {operand : Counted Tree}
    {operand' : Rule Tree} (hend : operation? .endOfStream = none)
    (hoperand : Tallies tokens levels operand operand') (rounds : Nat) :
    ∀ left, Tallies tokens levels (Counted.chain tokens operation? operand rounds left)
      (Rule.chain tokens operation? operand' rounds left) := by
  induction rounds with
  | zero => exact fun left ↦ .pure left
  | succ rounds ih =>
    refine fun left gauge ↦ .look ?_
    rw [Cursor.next?_eq]
    cases hop : (gauge.cursor.rest tokens).head?.bind (operation? ·.kind) with
    | none => exact .pure left
    | some op =>
      obtain ⟨operator, others, hrest, hgoes⟩ := Reader.exists_of_operation hend hop
      refine .bind (.step (.skip hrest hgoes)) fun _ after _ ↦ ?_
      exact bind hoperand (fun right ↦ ih _) after

section

variable {level : CountedLevel} {level' : Level}
  (hexpression : Tallies tokens levels level.expression level'.expression)

include hexpression

theorem tallies_factor :
    Tallies tokens levels (Counted.factor tokens level) (Rule.factor tokens level') := by
  refine fun gauge ↦ .look ?_
  rw [Cursor.next?_eq]
  cases hrest : gauge.cursor.rest tokens with
  | nil => exact .fail _
  | cons token others =>
    simp only [List.head?_cons]
    split
    · next hkind =>
      exact .bind (.step (.skip hrest (by simp [beq_iff_eq.mp hkind]))) fun _ _ _ ↦ .pure _
    split
    · next hliteral =>
      exact .step (consumes_typedLiteral hrest (TokenKind.ne_endOfStream_of_isLiteral hliteral))
    split
    · next hkind =>
      refine .bind (.step (.skip hrest (by simp [beq_iff_eq.mp hkind]))) fun _ after _ ↦ .look ?_
      cases after.cursor.nextIs tokens .leftParen with
      | true => exact bind (tallies_listed hexpression) (fun _ ↦ .pure _) after
      | false => exact .pure _
    split
    · next hkind =>
      refine .bind (.step (.skip hrest (by simp [beq_iff_eq.mp hkind]))) fun _ after _ ↦ ?_
      exact bind hexpression (fun _ ↦ bind (expect (by decide)) fun _ ↦ .pure _) after
    · exact .fail _

theorem tallies_term :
    Tallies tokens levels (Counted.term tokens level) (Rule.term tokens level') := by
  have hfactor : Tallies tokens levels (Counted.factor tokens level) (Rule.factor tokens level') :=
    tallies_factor hexpression
  refine .bind (accept (by decide)) fun found ↦ ?_
  cases found with
  | true => exact .bind hfactor fun _ ↦ tallies_chain rfl hfactor _ _
  | false => exact .bind hfactor fun _ ↦ tallies_chain rfl hfactor _ _

theorem tallies_additive :
    Tallies tokens levels (Counted.additive tokens level) (Rule.additive tokens level') :=
  .bind (tallies_term hexpression) fun _ ↦ tallies_chain rfl (tallies_term hexpression) _ _

theorem tallies_comparison :
    Tallies tokens levels (Counted.comparison tokens level) (Rule.comparison tokens level') := by
  refine .bind (tallies_additive hexpression) fun left gauge ↦ .look ?_
  rw [Cursor.next?_eq]
  cases hrest : gauge.cursor.rest tokens with
  | nil => exact .pure _
  | cons token others =>
    simp only [List.head?_cons]
    split
    · next hcomparison =>
      have hend := TokenKind.ne_endOfStream_of_isComparison hcomparison
      refine .bind (.step (.skip hrest hend)) fun _ after _ ↦ ?_
      cases CompareOp.ofKind? token.kind with
      | some op => exact bind (tallies_additive hexpression) (fun _ ↦ .pure _) after
      | none => exact .throw _
    · exact .pure _

theorem tallies_assignment :
    Tallies tokens levels (Counted.assignment tokens level) (Rule.assignment tokens level') :=
  .bind (expect (by decide)) fun _ ↦ .bind (expect (by decide)) fun _ ↦
    .bind hexpression fun _ ↦ .bind (expect (by decide)) fun _ ↦ .pure _

theorem tallies_expressionStatement :
    Tallies tokens levels (Counted.expressionStatement tokens level)
      (Rule.expressionStatement tokens level') := by
  refine .bind hexpression fun expression ↦ ?_
  cases expression.isBraced with
  | true => exact .bind (accept (by decide)) fun _ ↦ .pure _
  | false => exact .bind (expect (by decide)) fun _ ↦ .pure _

theorem tallies_trailing (error : SyntaxError) :
    Tallies tokens levels (Counted.trailing tokens level error)
      (Rule.trailing tokens level' error) := by
  intro gauge hgauge hlevels
  obtain ⟨deepest, furthest, hsound, hrun⟩ := hexpression gauge hgauge hlevels
  unfold Counted.trailing Rule.trailing
  rw [hrun]
  refine ⟨deepest, furthest, ?_⟩
  cases hend : level'.expression gauge.cursor with
  | ok tree after =>
    rw [hend] at hsound
    dsimp only [Counted.placed]
    split <;> exact ⟨hsound, rfl⟩
  | error failure after =>
    rw [hend] at hsound
    cases failure with
    | syntaxError found =>
      dsimp only [Counted.placed]
      split <;> exact ⟨hsound, rfl⟩
    | _ => exact ⟨hsound, rfl⟩

variable (htype : Tallies tokens levels level.type level'.type)

include htype

theorem tallies_declaration :
    Tallies tokens levels (Counted.declaration tokens level) (Rule.declaration tokens level') := by
  refine .bind (.step .advance) fun token? ↦ ?_
  cases token? with
  | none => exact .throw _
  | some token =>
    dsimp only
    cases token.lexeme.bind DeclKeyword.ofText? with
    | none => exact .throw _
    | some keyword =>
      refine .bind (expect (by decide)) fun _ ↦ .bind (expect (by decide)) fun _ ↦ ?_
      refine .bind htype fun _ ↦ .bind (expect (by decide)) fun _ ↦ ?_
      exact .bind hexpression fun _ ↦ .bind (expect (by decide)) fun _ ↦ .pure _

theorem tallies_statement :
    Tallies tokens levels (Counted.statement tokens level) (Rule.statement tokens level') := by
  refine fun gauge ↦ .look ?_
  split
  · exact tallies_declaration hexpression htype gauge
  split
  · exact tallies_assignment hexpression gauge
  · exact tallies_expressionStatement hexpression gauge

theorem tallies_blockElements (rounds : Nat) :
    Tallies tokens levels (Counted.blockElements tokens level rounds)
      (Rule.blockElements tokens level' rounds) := by
  induction rounds with
  | zero => exact .pure _
  | succ rounds ih =>
    refine fun gauge ↦ .look ?_
    split
    · exact .pure _
    refine bind (.speculate (tallies_statement hexpression htype)) (fun attempt ↦ ?_) gauge
    cases attempt with
    | error error => exact .bind (tallies_trailing hexpression error) fun _ ↦ .pure _
    | ok element =>
      refine .bind (.step (consumes_blockResult? element)) fun result? ↦ ?_
      cases result? with
      | some result => exact .pure _
      | none => exact .bind ih fun _ ↦ .pure _

theorem tallies_block :
    Tallies tokens levels (Counted.block tokens level) (Rule.block tokens level') :=
  .bind (expect (by decide)) fun _ ↦ .bind (tallies_blockElements hexpression htype _) fun _ ↦
    .bind (expect (by decide)) fun _ ↦ .pure _

theorem tallies_elseBranches (rounds : Nat) :
    Tallies tokens levels (Counted.elseBranches tokens level rounds)
      (Rule.elseBranches tokens level' rounds) := by
  induction rounds with
  | zero => exact .pure []
  | succ rounds ih =>
    refine fun gauge ↦ .look ?_
    rw [Cursor.nextIsKeyword_eq, Cursor.secondIsKeyword_eq]
    split
    · next hwords =>
      obtain ⟨first, second, others, hrest, hfirst, hsecond⟩ := Reader.exists_of_keywords hwords
      refine .bind (.step (.skip hrest hfirst)) fun _ middle hmiddle ↦ ?_
      have hmore := Cursor.rest_of_skip hrest hmiddle
      refine .bind (.step (.skip hmore hsecond)) fun _ after _ ↦ ?_
      refine bind hexpression (fun _ ↦ ?_) after
      exact bind (tallies_block hexpression htype) fun _ ↦ .bind ih fun _ ↦ .pure _
    · exact .pure []

theorem tallies_elseBlock :
    Tallies tokens levels (Counted.elseBlock tokens level) (Rule.elseBlock tokens level') := by
  refine fun gauge ↦ .look ?_
  rw [Cursor.nextIsKeyword_eq]
  split
  · next hnext =>
    obtain ⟨word, others, hrest, hword⟩ := Reader.exists_of_nextIsKeyword hnext
    have hend := Token.kind_ne_endOfStream_of_isKeyword hword
    exact .bind (.step (.skip hrest hend)) fun _ after _ ↦ tallies_block hexpression htype after
  · exact .pure _

theorem tallies_conditional :
    Tallies tokens levels (Counted.conditional tokens level) (Rule.conditional tokens level') := by
  refine .bind (.step (.expectKeyword "if")) fun _ ↦ .bind hexpression fun _ ↦ ?_
  refine .bind (tallies_block hexpression htype) fun _ ↦ ?_
  refine .bind (tallies_elseBranches hexpression htype _) fun _ ↦ ?_
  exact .bind (tallies_elseBlock hexpression htype) fun _ ↦ .pure _

theorem tallies_expressionWith :
    Tallies tokens levels (Counted.expressionWith tokens level)
      (Rule.expressionWith tokens level') := by
  refine fun gauge ↦ .look ?_
  split
  · exact tallies_block hexpression htype gauge
  split
  · exact tallies_conditional hexpression htype gauge
  · exact tallies_comparison hexpression gauge

theorem tallies_statements (rounds : Nat) :
    Tallies tokens levels (Counted.statements tokens level rounds)
      (Rule.statements tokens level' rounds) := by
  induction rounds with
  | zero => exact .pure []
  | succ rounds ih =>
    refine fun gauge ↦ .look ?_
    split
    · exact .pure []
    · exact bind (tallies_statement hexpression htype) (fun _ ↦ .bind ih fun _ ↦ .pure _) gauge

end

theorem tallies_expression (levels : Nat) : ∀ calls, levels < calls →
    Tallies tokens levels (Counted.expression tokens calls) (Rule.expression tokens levels) := by
  induction levels with
  | zero =>
    intro calls hcalls
    obtain ⟨calls, rfl⟩ : ∃ less, calls = less + 1 := ⟨calls - 1, by omega⟩
    exact .remembered (.refused _) fun _ ↦ .tooDeep
  | succ levels ih =>
    intro calls hcalls
    obtain ⟨calls, rfl⟩ : ∃ less, calls = less + 1 := ⟨calls - 1, by omega⟩
    exact .remembered
      (.opened (tallies_expressionWith (ih calls (by omega))
        (tallies_type levels calls (by omega))))
      (consumes_expressionWith (consumes_expression levels) (consumes_typeRule levels))

/-- Every rule that counts does what the rule does that is told how many levels are left. -/
theorem tallies_rule (hlevels : levels ≤ nestingLimit) (name : RuleName) :
    Tallies tokens levels (name.counted tokens) (name.rule tokens levels) := by
  have hexpression : Tallies tokens levels (Counted.level tokens).expression
      (Rule.level tokens levels).expression :=
    tallies_expression levels _ (Nat.lt_succ_of_le hlevels)
  have htype : Tallies tokens levels (Counted.level tokens).type (Rule.level tokens levels).type :=
    tallies_type levels _ (Nat.lt_succ_of_le hlevels)
  cases name with
  | program =>
    refine .bind ?_ fun _ ↦ .pure _
    exact .bind (tallies_statements hexpression htype _) fun _ ↦
      .bind (.step (.record _)) fun _ ↦ .pure _
  | statement => exact .bind (tallies_statement hexpression htype) fun _ ↦ .pure _
  | declaration => exact .bind (tallies_declaration hexpression htype) fun _ ↦ .pure _
  | assignment => exact .bind (tallies_assignment hexpression) fun _ ↦ .pure _
  | type => exact .bind htype fun _ ↦ .pure _
  | parameter => exact .bind (tallies_parameter htype) fun _ ↦ .pure _
  | parameterList => exact .bind (tallies_listed (tallies_parameter htype)) fun _ ↦ .pure _
  | expression => exact .bind hexpression fun _ ↦ .pure _
  | additive => exact .bind (tallies_additive hexpression) fun _ ↦ .pure _
  | term => exact .bind (tallies_term hexpression) fun _ ↦ .pure _
  | factor => exact .bind (tallies_factor hexpression) fun _ ↦ .pure _
  | arguments => exact .bind (tallies_listed hexpression) fun _ ↦ .pure _
  | block => exact .bind (tallies_block hexpression htype) fun _ ↦ .pure _
  | conditional => exact .bind (tallies_conditional hexpression htype) fun _ ↦ .pure _

end

end LetLang
