import LetLang.Proofs.Grammar.Limit
import LetLang.Syntax.Session

/-!
# What is remembered stays true

A session runs rules one after the other on one cursor, moves it back and forth between them, and
keeps what was remembered about expressions (`Session`). An expression remembered where few levels
were left is found again where many are, and expressions are made of others that were found again.

Whatever is done with a session, what it remembers is what reading comes to without a memo and
without a limit of nesting (`coherent_moves`): a remembered tree and its end, and a remembered error
that is not itself from the limit. The argument is that of the previous modules with this as the
meaning of sound (`Faithful`): a rule that is run over sound memories approaches the rule without
memory and limit, so what it adds to them is sound again (`mirrors_remembered`). That a limit above
the number of tokens is none makes this one meaning for all numbers of levels.
-/

set_option autoImplicit false

namespace LetLang

/-! ### Sound memories -/

section

variable (tokens : Array Token)

/-- What is remembered about the expression that starts at an index is what reading it comes to from
every cursor there, without a memo and with a limit that cannot be met. Of an error from the limit
no more is asked than that it is about no earlier place. -/
def Faithful (start : Nat) : Remembered → Prop
  | .parsed tree stop => start < stop ∧ stop ≤ tokens.size ∧
      ∀ levels cursor, tokens.size < levels → cursor.index = start →
        Rule.reading (Rule.expressionAfresh tokens levels) cursor = .ok (tree, stop)
  | .failed error => error.NestsAfter tokens start ∨
      (ParseFailure.syntaxError error).Ordinary start ∧
        ∀ levels cursor, tokens.size < levels → cursor.index = start →
          Rule.reading (Rule.expressionAfresh tokens levels) cursor =
            .error (.syntaxError error)

variable {tokens} {cursor cursor' : Cursor}

/-- An expression takes at least one token, and no more than there are. -/
theorem lt_of_expressionAfresh {levels start stop : Nat} {tree : Tree}
    (hstart : start ≤ tokens.size)
    (hread : Rule.reading (Rule.expressionAfresh tokens levels) { index := start } =
      .ok (tree, stop)) : start < stop ∧ stop ≤ tokens.size := by
  obtain ⟨after, hrun, rfl⟩ := Rule.exists_of_reading_ok hread
  have hlevel : FollowsLevel tokens (Rule.levelAfresh tokens levels)
      (Reader.level tokens.size levels) := follows_levelAfresh levels
  have hagrees := hlevel.expression { index := start } (fun index _ ↦ by simp) hstart
  have hfound : (Rule.levelAfresh tokens levels).expression { index := start } =
      .ok tree after := hrun
  rw [hfound] at hagrees
  cases hreader : (Reader.level tokens.size levels).expression
      (Cursor.rest tokens { index := start }) with
  | error obstacle rest =>
    rw [hreader] at hagrees
    obtain ⟨_, hcontrary, -⟩ := hagrees
    cases hcontrary
  | ok value rest =>
    rw [hreader] at hagrees
    obtain ⟨_, hok, -, hrest, -, hbound, -⟩ := hagrees
    cases hok
    obtain ⟨taken, hinput, -, hderived, -⟩ :=
      (sound_level tokens.size levels).expression _ _ _ hreader
    have hpositive := List.length_pos_iff.mpr hderived.ne_nil
    have hlength := congrArg List.length hinput
    rw [List.length_append, ← hrest, Cursor.length_rest, Cursor.length_rest] at hlength
    simp only at hlength
    exact ⟨by omega, hbound⟩

theorem Cursor.Trusted.remember {sound : Nat → Remembered → Prop}
    (hcursor : cursor.Trusted tokens sound) {start : Nat} {found : Remembered}
    (hfound : sound start found) :
    Cursor.Trusted tokens sound { cursor with memo := cursor.memo.insert start found } := by
  refine ⟨hcursor.bound, fun index other hother ↦ ?_⟩
  by_cases hindex : start = index
  · subst hindex
    rw [Std.TreeMap.getElem?_insert_self] at hother
    cases hother
    exact hfound
  · rw [getElem?_insert_of_ne _ _ hindex] at hother
    exact hcursor.memo index other hother

/-- Without a limit that could be met, it does not matter how many levels there are. -/
theorem Mirrors.relevel {sound : Nat → Remembered → Prop} {reach levels more : Nat}
    {rule : Rule Tree}
    (hrule : Mirrors tokens sound reach rule (Rule.expressionAfresh tokens levels))
    (hlevels : tokens.size < levels) (hmore : tokens.size < more) :
    Mirrors tokens sound reach rule (Rule.expressionAfresh tokens more) := by
  intro cursor cursor' hcursor hindex
  obtain ⟨hafter, happroaches⟩ := hrule cursor cursor' hcursor hindex
  have hbound : cursor'.index ≤ tokens.size := hindex ▸ hcursor.bound
  exact ⟨hafter, happroaches.congr (reading_expressionAfresh hlevels hmore hbound rfl).1⟩

/-- Remembering is sound: what is found is true, and so is what is added. -/
theorem mirrors_remembered {rule : Rule Tree} {levels : Nat} (hlevels : tokens.size < levels)
    (hrule : Mirrors tokens (Faithful tokens) 0 rule (Rule.expressionAfresh tokens levels)) :
    Mirrors tokens (Faithful tokens) 0 (Rule.remembered rule)
      (Rule.expressionAfresh tokens levels) := by
  intro cursor cursor' hcursor hindex
  cases hmemo : cursor.memo[cursor.index]? with
  | some found =>
    have hfaithful := hcursor.memo _ _ hmemo
    unfold Rule.remembered
    simp only [hmemo]
    cases found with
    | parsed tree stop =>
      obtain ⟨hlt, hle, hread⟩ := hfaithful
      obtain ⟨after, hrun, hstop⟩ := Rule.exists_of_reading_ok (hread levels cursor' hlevels hindex)
      rw [hrun]
      exact ⟨⟨hle, hcursor.memo⟩, .ok hstop (Nat.le_of_lt hlt)⟩
    | failed error =>
      rcases hfaithful with hnested | ⟨hordinary, hread⟩
      · exact ⟨hcursor, .nested hnested⟩
      · obtain ⟨after, hrun⟩ := Rule.exists_of_reading_error (hread levels cursor' hlevels hindex)
        rw [hrun]
        exact ⟨hcursor, .failed hordinary⟩
  | none =>
    obtain ⟨hafter, happroaches⟩ := hrule cursor cursor' hcursor hindex
    have hevery : ∀ more now, tokens.size < more → now.index = cursor.index →
        Rule.reading (Rule.expressionAfresh tokens more) now =
          Rule.reading (Rule.expressionAfresh tokens levels) cursor' := by
      intro more now hmore hnow
      exact (reading_expressionAfresh hmore hlevels (by have := hcursor.bound; omega)
        (by omega)).1
    generalize hrun : rule cursor = outcome at hafter happroaches
    generalize hexpected : Rule.expressionAfresh tokens levels cursor' = expected at happroaches
    cases happroaches with
    | nested hnested =>
      rw [Rule.remembered_of_error hmemo hrun]
      exact ⟨hafter.remember (.inl hnested), .nested hnested⟩
    | @ok tree after after' hstop hforward =>
      rw [Rule.reading_of_ok hexpected, hstop] at hevery
      have hspan := lt_of_expressionAfresh hcursor.bound
        (hevery levels { index := cursor.index } hlevels rfl)
      rw [Rule.remembered_of_ok hmemo hrun]
      exact ⟨hafter.remember ⟨hspan.1, hspan.2, hevery⟩, .ok hstop hforward⟩
    | @failed failure after after' hfailure =>
      rw [Rule.reading_of_error hexpected] at hevery
      cases failure with
      | syntaxError error =>
        rw [Rule.remembered_of_error hmemo hrun]
        exact ⟨hafter.remember (.inr ⟨hfailure, hevery⟩), .failed hfailure⟩
      | _ =>
        unfold Rule.remembered
        simp only [hmemo, hrun]
        exact ⟨hafter, .failed hfailure⟩

/-- What a rule found is remembered. -/
theorem getElem?_of_remembered_ok {rule : Rule Tree} {tree : Tree} {after : Cursor}
    (hrun : Rule.remembered rule cursor = .ok tree after) :
    ∃ stop, after.memo[cursor.index]? = some (.parsed tree stop) := by
  unfold Rule.remembered at hrun
  split at hrun
  · next found stop hmemo =>
    cases hrun
    exact ⟨stop, hmemo⟩
  · cases hrun
  · split at hrun
    · next middle _ =>
      cases hrun
      exact ⟨middle.index, Std.TreeMap.getElem?_insert_self⟩
    · cases hrun
    · cases hrun

theorem getElem?_of_remembered_error {rule : Rule Tree} {error : SyntaxError} {after : Cursor}
    (hrun : Rule.remembered rule cursor = .error (.syntaxError error) after) :
    after.memo[cursor.index]? = some (.failed error) := by
  unfold Rule.remembered at hrun
  split at hrun
  · cases hrun
  · next hmemo =>
    cases hrun
    exact hmemo
  · split at hrun
    · cases hrun
    · cases hrun
      exact Std.TreeMap.getElem?_insert_self
    · next hother _ =>
      cases hrun
      exact (hother _ rfl).elim

theorem repeats_remembered (sound : Nat → Remembered → Prop) (rule : Rule Tree) :
    Repeats tokens sound (Rule.remembered rule) := by
  intro cursor back _ hindex hmemo
  constructor
  · intro tree after hrun
    obtain ⟨stop, hstored⟩ := getElem?_of_remembered_ok hrun
    rw [hrun, cursorAfter] at hmemo
    rw [← hmemo, ← hindex] at hstored
    exact ⟨{ back with index := stop }, by rw [Rule.remembered, hstored]⟩
  · intro error after hrun
    have hstored := getElem?_of_remembered_error hrun
    rw [hrun, cursorAfter] at hmemo
    rw [← hmemo, ← hindex] at hstored
    exact ⟨back, by rw [Rule.remembered, hstored]⟩

/-- Rules that remember approach those that do not and that may open as many levels or more, and
more than there are tokens. -/
theorem mirrors_level (levels : Nat) : ∀ more, levels ≤ more → tokens.size < more →
    MirrorsLevel tokens (Faithful tokens) 0 (Rule.level tokens levels)
      (Rule.levelAfresh tokens more) := by
  induction levels with
  | zero =>
    intro more hle hmore
    exact ⟨mirrors_typeRule 0 more hle, mirrors_remembered hmore fun _ _ ↦ .tooDeep,
      repeats_remembered _ (Rule.tooDeep tokens), rebuffed_expressionAfresh more⟩
  | succ levels ih =>
    intro more hle hmore
    -- One level down the other rules may open just as many, since above the number of tokens that
    -- makes no difference.
    have hbelow : Mirrors tokens (Faithful tokens) 1
        (Rule.expressionWith tokens (Rule.level tokens levels))
        (Rule.expressionAfresh tokens (more + 1)) :=
      mirrors_expressionWith (ih more (Nat.le_of_succ_le hle) hmore)
    exact ⟨(mirrors_typeRule (levels + 1) more hle).mono (Nat.zero_le _),
      mirrors_remembered hmore ((hbelow.mono (Nat.zero_le _)).relevel (by omega) hmore),
      repeats_remembered _ (Rule.expressionWith tokens (Rule.level tokens levels)),
      rebuffed_expressionAfresh more⟩

theorem mirrors_unlimited (levels : Nat) :
    MirrorsLevel tokens (Faithful tokens) 0 (Rule.level tokens levels)
      (Rule.levelAfresh tokens (levels + tokens.size + 1)) :=
  mirrors_level levels _ (by omega) (by omega)

end

/-! ### Sessions -/

/-- The rule leaves a cursor with sound memories, if it is started at one. -/
def Maintains {α : Type} (tokens : Array Token) (rule : Rule α) : Prop :=
  ∀ cursor, cursor.Trusted tokens (Faithful tokens) →
    (cursorAfter (rule cursor)).Trusted tokens (Faithful tokens)

section

variable {α β : Type} {tokens : Array Token}

theorem Mirrors.maintains {reach : Nat} {rule rule' : Rule α}
    (hrule : Mirrors tokens (Faithful tokens) reach rule rule') : Maintains tokens rule :=
  fun cursor hcursor ↦ (hrule cursor cursor hcursor rfl).1

namespace Maintains

theorem pure (value : α) : Maintains tokens (Pure.pure value : Rule α) := fun _ hcursor ↦ hcursor

theorem bind {rule : Rule α} {next : α → Rule β} (hrule : Maintains tokens rule)
    (hnext : ∀ value, Maintains tokens (next value)) : Maintains tokens (rule >>= next) := by
  intro cursor hcursor
  have hfirst := hrule cursor hcursor
  cases hrun : rule cursor with
  | error failure after =>
    rw [hrun] at hfirst
    rw [Run.bind_of_error hrun]
    exact hfirst
  | ok value after =>
    rw [hrun] at hfirst
    rw [Run.bind_of_ok hrun]
    exact hnext value after hfirst

theorem record (event : Event) : Maintains tokens (Rule.record event) :=
  fun _ hcursor ↦ ⟨hcursor.bound, hcursor.memo⟩

theorem speculate {rule : Rule α} (hrule : Maintains tokens rule) :
    Maintains tokens (Rule.speculate rule) := by
  intro cursor hcursor
  have hfirst := hrule cursor hcursor
  unfold Rule.speculate
  split
  · next hrun => rwa [hrun] at hfirst
  · next hrun =>
    rw [hrun] at hfirst
    exact ⟨hcursor.bound, hfirst.memo⟩
  · next hrun => rwa [hrun] at hfirst

end Maintains

theorem maintains_rule (levels : Nat) (name : RuleName) :
    Maintains tokens (name.rule tokens levels) := by
  have hlevel : MirrorsLevel tokens (Faithful tokens) 0 (Rule.level tokens levels)
      (Rule.levelAfresh tokens (levels + tokens.size + 1)) := mirrors_unlimited levels
  have hexpression := hlevel.expression
  have htype := hlevel.type
  cases name with
  | program =>
    refine .bind ?_ fun _ ↦ .pure _
    exact .bind (mirrors_statements hexpression htype _).maintains fun _ ↦
      .bind (.record _) fun _ ↦ .pure _
  | statement => exact .bind (mirrors_statement hexpression htype).maintains fun _ ↦ .pure _
  | declaration => exact .bind (mirrors_declaration hexpression htype).maintains fun _ ↦ .pure _
  | assignment => exact .bind (mirrors_assignment hexpression).maintains fun _ ↦ .pure _
  | type => exact .bind htype.maintains fun _ ↦ .pure _
  | parameter => exact .bind (mirrors_parameter htype).maintains fun _ ↦ .pure _
  | parameterList =>
    exact .bind (mirrors_listed (mirrors_parameter htype)).maintains fun _ ↦ .pure _
  | expression => exact .bind hexpression.maintains fun _ ↦ .pure _
  | additive => exact .bind (mirrors_additive hexpression).maintains fun _ ↦ .pure _
  | term => exact .bind (mirrors_term hexpression).maintains fun _ ↦ .pure _
  | factor => exact .bind (mirrors_factor hexpression).maintains fun _ ↦ .pure _
  | arguments => exact .bind (mirrors_listed hexpression).maintains fun _ ↦ .pure _
  | block => exact .bind (mirrors_block hlevel).maintains fun _ ↦ .pure _
  | conditional => exact .bind (mirrors_conditional hlevel).maintains fun _ ↦ .pure _

theorem maintains_trailing (levels : Nat) (error : SyntaxError) :
    Maintains tokens (Rule.trailing tokens (Rule.level tokens levels) error) :=
  fun _ hcursor ↦ trusted_trailing (mirrors_unlimited levels).expression error hcursor

theorem maintains_advance : Maintains tokens (Rule.advance tokens) := by
  have hadvance : Mirrors tokens (Faithful tokens) 0 (Rule.advance tokens) (Rule.advance tokens) :=
    .advance
  exact hadvance.maintains

end

/-- What can be done with a session: one of its steps, or reading the expression that ends a block
after a statement failed with any error at all. -/
inductive Move
  | step (step : Step)
  | trailing (error : SyntaxError)

/-- The cursor is not set beyond the given number of tokens. -/
def Move.Within (size : Nat) : Move → Prop
  | .step (.rewind target) => target ≤ size
  | _ => True

namespace Session

/-- The session after a move. -/
def move (session : Session) : Move → Session
  | .step step => (session.step step).2
  | .trailing error =>
    (session.finish
      (Rule.trailing session.tokens (Rule.level session.tokens session.levels) error)
      fun tree => .yield (.tree tree)).2

/-- The session after a list of moves. -/
def moves (session : Session) (moves : List Move) : Session := moves.foldl move session

/-- What the session remembers is sound. -/
def Trusted (session : Session) : Prop :=
  session.cursor.Trusted session.tokens (Faithful session.tokens)

variable {session : Session}

theorem finish_snd {α : Type} (rule : Rule α) (result : α → StepResult) :
    (session.finish rule result).2 =
      { session with cursor := cursorAfter (rule session.cursor) } := by
  unfold finish
  split
  · next hrun => rw [hrun, cursorAfter]
  · next hrun => rw [hrun, cursorAfter]

theorem Trusted.finish {α : Type} {rule : Rule α} {result : α → StepResult}
    (hsession : session.Trusted) (hrule : Maintains session.tokens rule) :
    (session.finish rule result).2.Trusted := by
  rw [finish_snd]
  exact hrule session.cursor hsession

/-- A move keeps the tokens, and keeps what is remembered sound. -/
theorem Trusted.move (hsession : session.Trusted) {move : Move}
    (hmove : move.Within session.tokens.size) :
    (session.move move).tokens = session.tokens ∧ (session.move move).Trusted := by
  cases move with
  | trailing error =>
    exact ⟨by rw [Session.move, finish_snd], hsession.finish (maintains_trailing _ error)⟩
  | step step =>
    cases step with
    | run name =>
      exact ⟨by rw [Session.move, step, finish_snd], hsession.finish (maintains_rule _ name)⟩
    | speculate name =>
      exact ⟨by rw [Session.move, step, finish_snd],
        hsession.finish (.speculate (maintains_rule _ name))⟩
    | rewind target => exact ⟨rfl, hmove, hsession.memo⟩
    | advance =>
      exact ⟨by rw [Session.move, step, finish_snd], hsession.finish maintains_advance⟩
    | trailing message position =>
      exact ⟨by rw [Session.move, step, finish_snd], hsession.finish (maintains_trailing _ _)⟩

theorem Trusted.moves (hsession : session.Trusted) {moves : List Move}
    (hmoves : ∀ move ∈ moves, move.Within session.tokens.size) :
    (session.moves moves).tokens = session.tokens ∧ (session.moves moves).Trusted := by
  induction moves generalizing session with
  | nil => exact ⟨rfl, hsession⟩
  | cons move moves ih =>
    obtain ⟨hmove, hmore⟩ := List.forall_mem_cons.mp hmoves
    obtain ⟨htokens, hafter⟩ := hsession.move hmove
    obtain ⟨hlast, htrusted⟩ := ih hafter (htokens ▸ hmore)
    exact ⟨hlast.trans htokens, htrusted⟩

end Session

/-! ### Coherence -/

/-- What is remembered at the cursor is what reading comes to without a memo and without a limit. -/
structure Cursor.Coherent (tokens : Array Token) (cursor : Cursor) : Prop where
  /-- A limit above the number of tokens is never met. -/
  unlimited : ∀ levels now, tokens.size < levels → now.index ≤ tokens.size →
    ¬ Limited (Rule.reading (Rule.expressionAfresh tokens levels) now)
  /-- A remembered tree is the one that is read there, up to the same end. -/
  parsed : ∀ start tree stop, cursor.memo[start]? = some (.parsed tree stop) →
    start < stop ∧ stop ≤ tokens.size ∧
      ∀ levels now, tokens.size < levels → now.index = start →
        Rule.reading (Rule.expressionAfresh tokens levels) now = .ok (tree, stop)
  /-- A remembered error is the one that is met there, unless it is from the limit of nesting. -/
  failed : ∀ start error, cursor.memo[start]? = some (.failed error) →
    error.diagnostic.code? ≠ some "P006" →
      ∀ levels now, tokens.size < levels → now.index = start →
        Rule.reading (Rule.expressionAfresh tokens levels) now = .error (.syntaxError error)
  /-- Wherever the cursor is set, reading an expression comes to the same as if nothing were
  remembered, unless one of the two meets the limit. -/
  fresh : ∀ levels start, start ≤ tokens.size →
    Rule.reading (Rule.expression tokens levels) { cursor with index := start } =
        Rule.reading (Rule.expression tokens levels) { index := start } ∨
      Limited (Rule.reading (Rule.expression tokens levels) { cursor with index := start }) ∨
      Limited (Rule.reading (Rule.expression tokens levels) { index := start })

section

variable {tokens : Array Token} {cursor : Cursor}

theorem trusted_empty {start : Nat} (hstart : start ≤ tokens.size) :
    Cursor.Trusted tokens (Faithful tokens) { index := start } :=
  ⟨hstart, fun index found hfound ↦ by simp at hfound⟩

/-- A rule that remembers comes to what a rule without memo and limit comes to, unless it meets the
limit. -/
theorem reading_expression (hcursor : cursor.Trusted tokens (Faithful tokens)) (levels : Nat) :
    Limited (Rule.reading (Rule.expression tokens levels) cursor) ∨
      Rule.reading (Rule.expression tokens levels) cursor =
        Rule.reading (Rule.expressionAfresh tokens (levels + tokens.size + 1))
          { index := cursor.index } := by
  obtain ⟨-, happroaches⟩ :=
    (mirrors_unlimited levels).expression cursor { index := cursor.index } hcursor rfl
  rcases happroaches.reading_eq with ⟨error, hread, herror⟩ | ⟨hsame, -⟩
  · exact .inl ⟨error, hread, herror.nesting⟩
  · exact .inr hsame

theorem Cursor.Trusted.coherent (hcursor : cursor.Trusted tokens (Faithful tokens)) :
    cursor.Coherent tokens where
  unlimited levels now hlevels hbound := (reading_expressionAfresh hlevels hlevels hbound rfl).2
  parsed start tree stop hmemo := hcursor.memo start _ hmemo
  failed start error hmemo hcode := by
    rcases hcursor.memo start _ hmemo with hnested | ⟨-, hread⟩
    · exact absurd hnested.nesting hcode
    · exact hread
  fresh levels start hstart := by
    have hhere : Cursor.Trusted tokens (Faithful tokens) { cursor with index := start } :=
      ⟨hstart, hcursor.memo⟩
    rcases reading_expression hhere levels with hlimited | hsame
    · exact .inr (.inl hlimited)
    rcases reading_expression (trusted_empty hstart) levels with hlimited | hafresh
    · exact .inr (.inr hlimited)
    · exact .inl (hsame.trans hafresh.symm)

end

/-- Whatever is done with a new session, in whatever order, what it remembers about expressions
stays coherent. -/
theorem coherent_moves (tokens : Array Token) (moves : List Move)
    (hmoves : ∀ move ∈ moves, move.Within tokens.size) :
    (Session.moves { tokens := tokens } moves).cursor.Coherent tokens := by
  have hstart : Session.Trusted { tokens := tokens } := trusted_empty (Nat.zero_le _)
  obtain ⟨htokens, htrusted⟩ := hstart.moves hmoves
  rw [Session.Trusted, htokens] at htrusted
  exact htrusted.coherent

/-- A block is read, then a statement is looked for at its closing brace, and then the end of a
block after an error from elsewhere. The name inside the block and the error at the brace are
remembered, and both are what is found there without a memo. -/
theorem coherent_moves_block : ∃ session : Session,
    session = Session.moves
        { tokens := #[⟨.leftCurly, some "\x7b"⟩, ⟨.identifier, some "x"⟩,
            ⟨.rightCurly, some "\x7d"⟩] }
        [.step (.run .expression), .step (.rewind 2), .step (.speculate .statement),
          .trailing ⟨.reported "elsewhere", 7, none⟩] ∧
      session.cursor.memo[1]? = some (.parsed (.identifier (some "x")) 2) ∧
      session.cursor.memo[2]? =
        some (.failed ⟨.expected .expression, 2, some ⟨.rightCurly, some "\x7d"⟩⟩) ∧
      Rule.reading (Rule.expressionAfresh session.tokens 4) { index := 1 } =
        .ok (.identifier (some "x"), 2) ∧
      Rule.reading (Rule.expressionAfresh session.tokens 4) { index := 2 } =
        .error (.syntaxError ⟨.expected .expression, 2, some ⟨.rightCurly, some "\x7d"⟩⟩) := by
  have hcoherent := coherent_moves
    #[⟨.leftCurly, some "\x7b"⟩, ⟨.identifier, some "x"⟩, ⟨.rightCurly, some "\x7d"⟩]
    [.step (.run .expression), .step (.rewind 2), .step (.speculate .statement),
      .trailing ⟨.reported "elsewhere", 7, none⟩] (by simp [Move.Within])
  have hname := (hcoherent.parsed 1 (.identifier (some "x")) 2 rfl).2.2
  have hbrace := hcoherent.failed 2 _ rfl not_isNesting_expected
  exact ⟨_, rfl, rfl, rfl, hname 4 { index := 1 } (by decide) rfl,
    hbrace 4 { index := 2 } (by decide) rfl⟩

end LetLang
