import LetLang.Proofs.Grammar.Counting

/-!
# The discipline of the parser's state

Whatever was done with a parser before, rules run and tried, the cursor moved on and set back, every
rule that is called next behaves: it closes the levels that it opens, also when it fails, and never
has more of them open than the limit allows; the cursor stays among the tokens while it runs, and it
does not end before its start; if the rule succeeds, the cursor moved past tokens that do not end
the stream, at least one of them unless it is the rule of whole programs; and if the rule is tried
and meets a syntax error, the cursor is back where it was (`Gauge.Disciplined`,
`disciplined_moves`).

The parser is the one that keeps count of its levels in its state. What it does is what a session
does, which is told the number of levels instead (`Gauge.Keeps`); each move keeps the two in step.
-/

set_option autoImplicit false

namespace LetLang

/-! ### Counted sessions -/

/-- The state in which a counted rule ended. -/
def gaugeAfter {α : Type} : EStateM.Result ParseFailure Gauge α → Gauge
  | .ok _ after => after
  | .error _ after => after

@[simp] theorem gaugeAfter_placed {α : Type} {depth deepest furthest : Nat}
    (outcome : EStateM.Result ParseFailure Cursor α) :
    gaugeAfter (Counted.placed depth deepest furthest outcome) =
      ⟨cursorAfter outcome, depth, deepest, furthest⟩ := by
  cases outcome <;> rfl

namespace Gauge

variable (tokens : Array Token)

/-- A new parser in which some levels are open already. -/
def ofDepth (opened : Nat) : Gauge := { depth := opened, deepest := opened }

/-- The state after a move. -/
def move (gauge : Gauge) : Move → Gauge
  | .step (.run name) => gaugeAfter (name.counted tokens gauge)
  | .step (.speculate name) => gaugeAfter (Counted.speculate (name.counted tokens) gauge)
  | .step (.rewind target) => gauge.moved { gauge.cursor with index := target }
  | .step .advance => gaugeAfter (Counted.step (Rule.advance tokens) gauge)
  | .step (.trailing message position) =>
    gaugeAfter (Counted.trailing tokens (Counted.level tokens)
      ⟨.reported message, position, none⟩ gauge)
  | .trailing error => gaugeAfter (Counted.trailing tokens (Counted.level tokens) error gauge)

/-- The state after a list of moves. -/
def moves (gauge : Gauge) (moves : List Move) : Gauge := moves.foldl (move tokens) gauge

end Gauge

/-- The outcome of a counted rule without the counts. -/
def Counted.uncounted {α : Type} :
    EStateM.Result ParseFailure Gauge α → EStateM.Result ParseFailure Cursor α
  | .ok value after => .ok value after.cursor
  | .error failure after => .error failure after.cursor

/-- What is to be said of a rule that was called in a state: levels, cursor, and the tokens that it
took if it succeeded. -/
structure Gauge.Orderly {α : Type} (tokens : Array Token) (least : Nat) (gauge : Gauge)
    (outcome : EStateM.Result ParseFailure Gauge α) : Prop where
  closed : (gaugeAfter outcome).depth = gauge.depth
  sound : (gaugeAfter outcome).Sound tokens
  forward : gauge.cursor.index ≤ (gaugeAfter outcome).cursor.index
  taken : ∀ value after, outcome = .ok value after →
    gauge.cursor.index + least ≤ after.cursor.index ∧
      Unended tokens gauge.cursor.index after.cursor.index

/-- A move changes nothing in a session but its cursor. -/
theorem Session.move_eq (session : Session) (move : Move) :
    session.move move = { session with cursor := (session.move move).cursor } := by
  cases move with
  | trailing error => rw [Session.move, finish_snd]
  | step step => cases step <;> simp only [Session.move, Session.step, finish_snd]

theorem Session.moves_tokens (session : Session) (moves : List Move) :
    (session.moves moves).tokens = session.tokens ∧
      (session.moves moves).levels = session.levels := by
  induction moves generalizing session with
  | nil => exact ⟨rfl, rfl⟩
  | cons move moves ih =>
    obtain ⟨htokens, hlevels⟩ := ih (session.move move)
    exact ⟨htokens.trans (by rw [session.move_eq move]),
      hlevels.trans (by rw [session.move_eq move])⟩

section

variable {α : Type} {tokens : Array Token} {gauge : Gauge} {session : Session} {least : Nat}

/-- After a syntax error the cursor is back, and the count is what the rule left. -/
theorem Counted.speculate_of_syntaxError {counted : Counted α} {error : SyntaxError} {after : Gauge}
    (hrun : counted gauge = .error (.syntaxError error) after) :
    speculate counted gauge = .ok (.error error) (after.moved { after.cursor with
      index := gauge.cursor.index
      trace := .rewound after.cursor.index gauge.cursor.index error.diagnostic.message ::
        after.cursor.trace }) := by
  rw [speculate, hrun]

/-- A counted rule does what a rule does that moves on, so it is orderly. -/
theorem Gauge.Sound.orderly {counted : Counted α} {rule : Rule α} {levels : Nat}
    (hgauge : gauge.Sound tokens) (hlevels : gauge.depth + levels = nestingLimit)
    (htallies : Tallies tokens levels counted rule) (hconsumes : Consumes tokens least rule) :
    gauge.Orderly tokens least (counted gauge) ∧
      (gaugeAfter (counted gauge)).cursor = cursorAfter (rule gauge.cursor) := by
  obtain ⟨deepest, furthest, hsound, hrun⟩ := htallies gauge hgauge hlevels
  rw [hrun, gaugeAfter_placed]
  refine ⟨?_, rfl⟩
  cases hrule : rule gauge.cursor with
  | ok value after =>
    rw [hrule] at hsound
    obtain ⟨-, hle, hunended⟩ := (hconsumes gauge.cursor).of_ok hgauge.cursor hrule
    refine ⟨rfl, hsound, Nat.le_trans (Nat.le_add_right _ _) hle, ?_⟩
    rintro value after hok
    cases hok
    exact ⟨hle, hunended⟩
  | error failure after =>
    rw [hrule] at hsound
    obtain ⟨-, hle⟩ := (hconsumes gauge.cursor).of_error hgauge.cursor hrule
    refine ⟨rfl, hsound, hle, ?_⟩
    rintro value after hok
    cases hok

/-- The parser that counts is where the session is, and as many levels are open as the session has
been told to leave out. -/
structure Gauge.Keeps (gauge : Gauge) (session : Session) : Prop where
  sound : gauge.Sound session.tokens
  cursor : session.cursor = gauge.cursor
  levels : gauge.depth + session.levels = nestingLimit

namespace Gauge.Keeps

theorem finish {counted : Counted α} {rule : Rule α} {result : α → StepResult}
    (hgauge : gauge.Keeps session) (htallies : Tallies session.tokens session.levels counted rule)
    (hconsumes : Consumes session.tokens least rule) :
    (gaugeAfter (counted gauge)).Keeps (session.finish rule result).2 := by
  obtain ⟨horderly, hcursor⟩ := hgauge.sound.orderly hgauge.levels htallies hconsumes
  rw [Session.finish_snd]
  refine ⟨horderly.sound, ?_, ?_⟩
  · rw [hcursor, hgauge.cursor]
  · rw [horderly.closed]
    exact hgauge.levels

theorem trailing (hgauge : gauge.Keeps session) (error : SyntaxError) {result : Tree → StepResult} :
    (gaugeAfter (Counted.trailing session.tokens (Counted.level session.tokens) error gauge)).Keeps
      (session.finish
        (Rule.trailing session.tokens (Rule.level session.tokens session.levels) error)
        result).2 := by
  have hlevels : session.levels < nestingLimit + 1 := by
    have := hgauge.levels
    omega
  exact hgauge.finish (tallies_trailing (tallies_expression _ _ hlevels) error)
    (consumes_trailing (consumes_expression _) error)

/-- A move keeps the parser that counts and the session in step. -/
theorem move (hgauge : gauge.Keeps session) {move : Move}
    (hmove : move.Within session.tokens.size) :
    (gauge.move session.tokens move).Keeps (session.move move) := by
  have hlevels : session.levels ≤ nestingLimit := by
    have := hgauge.levels
    omega
  cases move with
  | trailing error => exact hgauge.trailing error
  | step step =>
    cases step with
    | run name => exact hgauge.finish (tallies_rule hlevels name) (consumes_rule _ name)
    | speculate name =>
      exact hgauge.finish (.speculate (tallies_rule hlevels name))
        (.speculate (consumes_rule _ name))
    | rewind target =>
      refine ⟨hgauge.sound.moved ⟨hmove, hgauge.sound.cursor.memo⟩, ?_, hgauge.levels⟩
      rw [Gauge.move, ← hgauge.cursor]
      rfl
    | advance => exact hgauge.finish (.step .advance) .advance
    | trailing message position => exact hgauge.trailing _

theorem moves {moves : List Move} (hgauge : gauge.Keeps session)
    (hmoves : ∀ move ∈ moves, move.Within session.tokens.size) :
    (gauge.moves session.tokens moves).Keeps (session.moves moves) := by
  induction moves generalizing gauge session with
  | nil => exact hgauge
  | cons move moves ih =>
    obtain ⟨hmove, hmore⟩ := List.forall_mem_cons.mp hmoves
    have htokens : (session.move move).tokens = session.tokens := by rw [session.move_eq move]
    have hlast := ih (hgauge.move hmove) (htokens ▸ hmore)
    rw [htokens] at hlast
    exact hlast

end Gauge.Keeps

/-! ### Discipline -/

/-- What the state of a parser promises of every rule that is called in it. -/
structure Gauge.Disciplined (tokens : Array Token) (gauge : Gauge) : Prop where
  /-- A rule comes to what the rule does that is told how many levels are left. -/
  uncounted : ∀ name : RuleName, Counted.uncounted (name.counted tokens gauge) =
    name.rule tokens (nestingLimit - gauge.depth) gauge.cursor
  /-- However a rule ends, as many levels are open as before. -/
  closed : ∀ name : RuleName, (gaugeAfter (name.counted tokens gauge)).depth = gauge.depth
  /-- There were never more than the limit allows, also while the rule ran. -/
  limited : ∀ name : RuleName, (gaugeAfter (name.counted tokens gauge)).deepest ≤ nestingLimit
  /-- However a rule ends, the cursor is among the tokens and not before where the rule started, and
  it was never beyond the tokens, also while the rule ran. -/
  within : ∀ name : RuleName,
    gauge.cursor.index ≤ (gaugeAfter (name.counted tokens gauge)).cursor.index ∧
      (gaugeAfter (name.counted tokens gauge)).cursor.index ≤ tokens.size ∧
      (gaugeAfter (name.counted tokens gauge)).furthest ≤ tokens.size
  /-- A rule that succeeds took at least one token, unless it is that of whole programs. -/
  advanced : ∀ (name : RuleName) (value : Yield) (after : Gauge), name ≠ .program →
    name.counted tokens gauge = .ok value after → gauge.cursor.index < after.cursor.index
  /-- None of the tokens that it took ends the stream. -/
  unended : ∀ (name : RuleName) (value : Yield) (after : Gauge),
    name.counted tokens gauge = .ok value after →
      Unended tokens gauge.cursor.index after.cursor.index
  /-- A rule that is tried and meets a syntax error yields the error, with the cursor and the levels
  as they were. -/
  rewound : ∀ (name : RuleName) (error : SyntaxError) (after : Gauge),
    name.counted tokens gauge = .error (.syntaxError error) after →
      ∃ back, Counted.speculate (name.counted tokens) gauge = .ok (.error error) back ∧
        back.cursor.index = gauge.cursor.index ∧ back.depth = gauge.depth
  /-- The loops over statements, elements of a block, arguments and parameters end by themselves:
  beyond the number of tokens, more rounds make no difference. -/
  terminating : ∀ rounds, tokens.size ≤ rounds →
    let level := Rule.level tokens (nestingLimit - gauge.depth)
    Rule.statements tokens level rounds gauge.cursor =
        Rule.statements tokens level tokens.size gauge.cursor ∧
      Rule.blockElements tokens level rounds gauge.cursor =
        Rule.blockElements tokens level tokens.size gauge.cursor ∧
      Rule.afterCommas tokens level.expression rounds gauge.cursor =
        Rule.afterCommas tokens level.expression tokens.size gauge.cursor ∧
      Rule.afterCommas tokens (Rule.parameter tokens level.type) rounds gauge.cursor =
        Rule.afterCommas tokens (Rule.parameter tokens level.type) tokens.size gauge.cursor

theorem Gauge.Sound.disciplined (hgauge : gauge.Sound tokens) : gauge.Disciplined tokens := by
  obtain ⟨levels, hlevels⟩ : ∃ levels, nestingLimit - gauge.depth = levels := ⟨_, rfl⟩
  have hopen : gauge.depth + levels = nestingLimit := by
    have := hgauge.depth
    omega
  have htallies : ∀ name : RuleName,
      Tallies tokens levels (name.counted tokens) (name.rule tokens levels) :=
    fun name ↦ tallies_rule (by omega) name
  have horderly : ∀ name : RuleName,
      gauge.Orderly tokens name.least (name.counted tokens gauge) :=
    fun name ↦ (hgauge.orderly hopen (htallies name) (consumes_rule levels name)).1
  have hexpression : Consumes tokens 1 (Rule.level tokens levels).expression :=
    consumes_expression levels
  have htype : Consumes tokens 1 (Rule.level tokens levels).type := consumes_typeRule levels
  constructor
  case uncounted =>
    intro name
    obtain ⟨deepest, furthest, -, hrun⟩ := htallies name gauge hgauge hopen
    rw [hrun, hlevels]
    cases name.rule tokens levels gauge.cursor <;> rfl
  case closed => exact fun name ↦ (horderly name).closed
  case limited => exact fun name ↦ (horderly name).sound.deepest
  case within =>
    exact fun name ↦ ⟨(horderly name).forward, (horderly name).sound.cursor.bound,
      (horderly name).sound.furthest⟩
  case advanced =>
    intro name value after hname hrun
    have htaken := ((horderly name).taken value after hrun).1
    rw [RuleName.least_of_ne_program hname] at htaken
    exact htaken
  case unended => exact fun name value after hrun ↦ ((horderly name).taken value after hrun).2
  case rewound =>
    intro name error after hrun
    have hclosed := (horderly name).closed
    rw [hrun] at hclosed
    exact ⟨_, Counted.speculate_of_syntaxError hrun, rfl, hclosed⟩
  case terminating =>
    intro rounds hrounds
    rw [hlevels]
    exact ⟨rounds_irrelevant_statements hexpression htype hrounds hgauge.cursor,
      rounds_irrelevant_blockElements hexpression htype hrounds hgauge.cursor,
      rounds_irrelevant_afterCommas hexpression hrounds hgauge.cursor,
      rounds_irrelevant_afterCommas (consumes_parameter htype) hrounds hgauge.cursor⟩

end

theorem Gauge.keeps_ofDepth {tokens : Array Token} {opened : Nat}
    (hopened : opened ≤ nestingLimit) :
    (ofDepth opened).Keeps { tokens := tokens, levels := nestingLimit - opened } := by
  have hempty : (ofDepth opened).cursor.Trusted tokens (Spans tokens) :=
    ⟨Nat.zero_le _, fun index found hfound ↦ by simp [ofDepth] at hfound⟩
  exact ⟨⟨hempty, hopened, hopened, Nat.zero_le _⟩, rfl, Nat.add_sub_cancel' hopened⟩

/-- Whatever was done with a parser, also one in which some levels are open already, the rule that
is called next keeps the discipline. The parser has as many levels open as at the start, and its
cursor is that of a session with which the same was done. -/
theorem disciplined_moves (tokens : Array Token) (opened : Nat) (hopened : opened ≤ nestingLimit)
    (moves : List Move) (hmoves : ∀ move ∈ moves, move.Within tokens.size) :
    ((Gauge.ofDepth opened).moves tokens moves).Disciplined tokens ∧
      ((Gauge.ofDepth opened).moves tokens moves).depth = opened ∧
      ((Gauge.ofDepth opened).moves tokens moves).cursor =
        (Session.moves { tokens := tokens, levels := nestingLimit - opened } moves).cursor := by
  obtain ⟨hsound, hcursor, hdepth⟩ := (Gauge.keeps_ofDepth hopened).moves hmoves
  obtain ⟨htokens, hlevels⟩ :=
    Session.moves_tokens { tokens := tokens, levels := nestingLimit - opened } moves
  rw [htokens] at hsound
  rw [hlevels] at hdepth
  dsimp only at hdepth
  exact ⟨hsound.disciplined, by omega, hcursor.symm⟩

/-- With one level left below the limit, a number before a brace is tried as a statement, which
fails for want of a semicolon; the cursor is put behind the number and back before it. The number
took the last level and is remembered, and an expression that is asked for now jumps to its end. -/
theorem disciplined_moves_number : ∃ (gauge : Gauge) (after : Gauge),
    gauge = (Gauge.ofDepth 63).moves #[⟨.numberLiteral, some "1"⟩, ⟨.rightCurly, some "\x7d"⟩]
        [.step (.speculate .statement), .step .advance, .step (.rewind 0)] ∧
      gauge.deepest = 64 ∧
      RuleName.expression.counted #[⟨.numberLiteral, some "1"⟩, ⟨.rightCurly, some "\x7d"⟩] gauge =
        .ok (.tree (.literal (some "1"))) after ∧
      gauge.cursor.index < after.cursor.index ∧ after.depth = 63 := by
  obtain ⟨hdisciplined, hdepth, -⟩ := disciplined_moves
    #[⟨.numberLiteral, some "1"⟩, ⟨.rightCurly, some "\x7d"⟩] 63 (by decide)
    [.step (.speculate .statement), .step .advance, .step (.rewind 0)] (by simp [Move.Within])
  refine ⟨_, _, rfl, rfl, rfl, hdisciplined.advanced .expression _ _ (by decide) rfl, ?_⟩
  exact (hdisciplined.closed .expression).trans hdepth

end LetLang
