import LetLang.Proofs.Grammar.Nesting

/-!
# The limit of nesting is never recovered from

A block tries an element as a statement, moves back when that fails, and tries it as its last
expression. Here the rules that do so are compared over two levels, as the others are in the
previous module. Moving back could lose an error from the limit of nesting, or turn it into an
ordinary one. Two facts rule that out. An expression that was read as a statement is found again as
it was, so a statement that was stopped by the limit stays stopped by it (`Repeats`). And where a
declaration or an assignment starts, there is no expression before a closing brace, so its error
stands (`Rebuffed`).

Without a memo the comparison holds between any two limits, the lower on the left
(`mirrors_levelAfresh`). As every level costs a token, a limit above the number of tokens is no
limit at all: it is never met, and all such limits come to the same (`reading_expressionAfresh`).
-/

set_option autoImplicit false

namespace LetLang

/-! ### Moving back -/

section

variable (tokens : Array Token) (sound : Nat → Remembered → Prop)

/-- Once run at a cursor that is to be trusted, the rule comes to the same tree or the same syntax
error when it is run there again with the memo that it left. -/
def Repeats (rule : Rule Tree) : Prop :=
  ∀ ⦃cursor back : Cursor⦄, cursor.Trusted tokens sound → back.index = cursor.index →
    back.memo = (cursorAfter (rule cursor)).memo →
      (∀ tree after, rule cursor = .ok tree after → ∃ last, rule back = .ok tree last) ∧
      ∀ error after, rule cursor = .error (.syntaxError error) after →
        ∃ last, rule back = .error (.syntaxError error) last

/-- A level of rules whose outcomes approach those of a level that remembers nothing. -/
structure MirrorsLevel (reach : Nat) (level level' : Level) : Prop where
  type : Mirrors tokens sound reach level.type level'.type
  expression : Mirrors tokens sound reach level.expression level'.expression
  repeats : Repeats tokens sound level.expression
  rebuffed : Rebuffed tokens level'.expression

end

section

variable {tokens : Array Token} {sound : Nat → Remembered → Prop} {reach : Nat}
  {level level' : Level} {cursor cursor' back back' after : Cursor} {error : SyntaxError}

/-- A declaration or an assignment starts here. -/
def Cursor.StartsEnded (tokens : Array Token) (cursor : Cursor) : Prop :=
  (Reader.declKeyword? (cursor.rest tokens)).isSome = true ∨
    Reader.startsAssignment (cursor.rest tokens) = true

theorem startsEnded_or_statement (level : Level) (cursor : Cursor) :
    cursor.StartsEnded tokens ∨
      Rule.statement tokens level cursor = Rule.expressionStatement tokens level cursor := by
  cases hkeyword : Reader.declKeyword? (cursor.rest tokens) with
  | some keyword => exact .inl (.inl (by rw [hkeyword]; rfl))
  | none =>
    cases hstarts : Reader.startsAssignment (cursor.rest tokens) with
    | true => exact .inl (.inr hstarts)
    | false => exact .inr (statement_of_expression hkeyword hstarts)

/-- Moving back keeps what was remembered on the way. -/
theorem Cursor.Trusted.rewound (hcursor : cursor.Trusted tokens sound)
    (hafter : after.Trusted tokens sound) (hindex : back.index = cursor.index)
    (hmemo : back.memo = after.memo) : back.Trusted tokens sound :=
  ⟨hindex ▸ hcursor.bound, hmemo ▸ hafter.memo⟩

/-- Reading the last expression of a block ends where reading the expression does. -/
theorem cursorAfter_trailing :
    cursorAfter (Rule.trailing tokens level error back) =
      cursorAfter (level.expression back) := by
  unfold Rule.trailing
  split
  · next hrun =>
    rw [hrun]
    split <;> rfl
  · next hrun =>
    rw [hrun]
    split <;> rfl
  · next hrun => rw [hrun]

theorem trusted_trailing
    (hexpression : Mirrors tokens sound reach level.expression level'.expression)
    (error : SyntaxError) (hback : back.Trusted tokens sound) :
    (cursorAfter (Rule.trailing tokens level error back)).Trusted tokens sound := by
  rw [cursorAfter_trailing]
  exact (hexpression back back hback rfl).1

section

variable (hlevel : MirrorsLevel tokens sound reach level level')

include hlevel

omit hlevel in
/-- Without a memo, the error of a declaration or an assignment stands. -/
theorem trailing_of_rebuffed (error : SyntaxError) (hrebuffed : Rebuffed tokens level'.expression)
    (hstarts : back'.StartsEnded tokens) (hposition : (back'.index : Int) ≤ error.position) :
    ∃ last, Rule.trailing tokens level' error back' = .error (.syntaxError error) last := by
  rcases hrebuffed back' hstarts with ⟨found, hrun, hfound⟩ | ⟨tree, hrun, hcurly⟩
  · exact ⟨_, trailing_of_outcome (.inl ⟨found, hrun, by omega⟩)⟩
  · exact ⟨_, trailing_of_outcome (.inr ⟨tree, hrun, hcurly⟩)⟩

/-- With a memo, the error of a declaration or an assignment stands too, unless it gives way to one
from the limit of nesting. -/
theorem trailing_of_startsEnded (error : SyntaxError) (hback : back.Trusted tokens sound)
    (hstarts : back.StartsEnded tokens) (hposition : (back.index : Int) ≤ error.position) :
    ∃ found last, Rule.trailing tokens level error back = .error (.syntaxError found) last ∧
      (found = error ∨ found.NestsAfter tokens (back.index + reach)) := by
  obtain ⟨-, happroaches⟩ := hlevel.expression back back hback rfl
  have hexpected := hlevel.rebuffed back hstarts
  generalize hrun : level.expression back = outcome at happroaches
  generalize level'.expression back = expected at happroaches hexpected
  cases happroaches with
  | @nested found last _ hfound =>
    unfold Rule.trailing
    simp only [hrun]
    split
    · exact ⟨found, last, rfl, .inr hfound⟩
    · exact ⟨error, last, rfl, .inl rfl⟩
  | @ok tree last last' hindex hforward =>
    rcases hexpected with ⟨_, hcontrary, -⟩ | ⟨_, hok, hcurly⟩
    · cases hcontrary
    · cases hok
      refine ⟨error, last, trailing_of_outcome (.inr ⟨tree, hrun, ?_⟩), .inl rfl⟩
      rw [Cursor.nextIs_eq, Cursor.rest_congr hindex, ← Cursor.nextIs_eq] at hcurly
      exact hcurly
  | @failed failure last last' hfailure =>
    rcases hexpected with ⟨found, herror, hfound⟩ | ⟨_, hcontrary, -⟩
    · cases herror
      exact ⟨error, last, trailing_of_outcome (.inl ⟨found, hrun, by omega⟩), .inl rfl⟩
    · cases hcontrary

section

variable (hcursor : cursor.Trusted tokens sound) (hback : back.Trusted tokens sound)
  (hrun : Rule.statement tokens level cursor = .error (.syntaxError error) after)
  (hindex : back.index = cursor.index) (hmemo : back.memo = after.memo)

include hcursor hback hrun hindex hmemo

/-- A statement that was stopped by the limit of nesting stays stopped by it. -/
theorem trailing_of_nested (herror : error.NestsAfter tokens (cursor.index + reach)) :
    ∃ found last, Rule.trailing tokens level error back = .error (.syntaxError found) last ∧
      found.NestsAfter tokens (cursor.index + reach) := by
  rcases startsEnded_or_statement level cursor with hstarts | hstatement
  · rw [Cursor.StartsEnded, ← Cursor.rest_congr hindex] at hstarts
    have hposition := herror.after
    obtain ⟨found, last, htrailing, hfound⟩ :=
      trailing_of_startsEnded hlevel error hback hstarts (by omega)
    refine ⟨found, last, htrailing, ?_⟩
    rcases hfound with rfl | hfound
    · exact herror
    · exact hindex ▸ hfound
  · rw [hstatement] at hrun
    rcases error_of_expressionStatement hrun with hstop | ⟨-, rfl⟩
    · obtain ⟨-, hagain⟩ := hlevel.repeats hcursor hindex (by rw [hmemo, hstop, cursorAfter])
      obtain ⟨last, hlast⟩ := hagain error after hstop
      exact ⟨error, last, trailing_of_error hlast, herror⟩
    · exact absurd herror.nesting not_isNesting_expected

/-- After an ordinary error of a statement, the last expression of a block approaches the one that
is read without a memo. -/
theorem approaches_trailing (herror : (ParseFailure.syntaxError error).Ordinary cursor.index)
    (hindex' : back'.index = back.index) :
    Approaches tokens cursor.index reach (Rule.trailing tokens level error back)
      (Rule.trailing tokens level' error back') := by
  have hposition := herror.1
  rcases startsEnded_or_statement level cursor with hstarts | hstatement
  · rw [Cursor.StartsEnded, ← Cursor.rest_congr hindex] at hstarts
    obtain ⟨found, last, htrailing, hfound⟩ :=
      trailing_of_startsEnded hlevel error hback hstarts (by omega)
    rw [← Cursor.rest_congr hindex'] at hstarts
    obtain ⟨last', htrailing'⟩ :=
      trailing_of_rebuffed error hlevel.rebuffed hstarts (by omega)
    rw [htrailing, htrailing']
    rcases hfound with rfl | hfound
    · exact .failed herror
    · exact .nested (hindex ▸ hfound)
  · -- The expression is found again as it was when the statement was tried, so it did not meet the
    -- limit in between.
    rw [hstatement] at hrun
    obtain ⟨-, happroaches⟩ := hlevel.expression back back' hback hindex'
    generalize hexpected : level'.expression back' = expected at happroaches
    rcases error_of_expressionStatement hrun with hstop | ⟨⟨tree, hread⟩, -⟩
    · obtain ⟨-, hagain⟩ := hlevel.repeats hcursor hindex (by rw [hmemo, hstop, cursorAfter])
      obtain ⟨last, hlast⟩ := hagain error after hstop
      rw [hlast] at happroaches
      rw [trailing_of_error hlast]
      cases happroaches with
      | nested hnested => exact absurd hnested.nesting herror.2
      | failed _ =>
        rw [trailing_of_error hexpected]
        exact .failed herror
    · obtain ⟨hagain, -⟩ := hlevel.repeats hcursor hindex (by rw [hmemo, hread, cursorAfter])
      obtain ⟨last, hlast⟩ := hagain tree after hread
      rw [hlast] at happroaches
      cases happroaches with
      | ok hlastIndex hforward =>
        unfold Rule.trailing
        simp only [hlast, hexpected, Cursor.nextIs_eq, Cursor.rest_congr hlastIndex]
        split
        · exact .ok hlastIndex (hindex ▸ hforward)
        · exact .failed herror

end

/-- An element of a block is tried as a statement, and then as the last expression. -/
theorem mirrors_attempt {β : Type} {next next' : Except SyntaxError Tree → Rule β}
    (last : Tree → β)
    (hnext : ∀ error, next (.error error) = do
      return last (← Rule.trailing tokens level error))
    (hnext' : ∀ error, next' (.error error) = do
      return last (← Rule.trailing tokens level' error))
    (hmore : ∀ element, Mirrors tokens sound reach (next (.ok element)) (next' (.ok element))) :
    Mirrors tokens sound reach (Rule.speculate (Rule.statement tokens level) >>= next)
      (Rule.speculate (Rule.statement tokens level') >>= next') := by
  intro cursor cursor' hcursor hindex
  obtain ⟨hafter, happroaches⟩ :=
    mirrors_statement hlevel.expression hlevel.type cursor cursor' hcursor hindex
  generalize hrun : Rule.statement tokens level cursor = outcome at hafter happroaches
  generalize hexpected : Rule.statement tokens level' cursor' = expected at happroaches
  cases happroaches with
  | @nested error after _ herror =>
    -- Nothing is known of the other statement here, so the block has to end with the limit.
    obtain ⟨back, hbackIndex, hbackMemo, hattempt⟩ := Rule.speculate_of_syntaxError hrun
    have hback := hcursor.rewound hafter hbackIndex hbackMemo
    obtain ⟨found, stop, htrailing, hfound⟩ :=
      trailing_of_nested hlevel hcursor hback hrun hbackIndex hbackMemo herror
    have hstop := trusted_trailing hlevel.expression error hback
    rw [htrailing] at hstop
    rw [Run.bind_of_ok hattempt, hnext, Run.bind_of_error htrailing]
    exact ⟨hstop, .nested hfound⟩
  | @ok element after after' hafterIndex hforward =>
    obtain ⟨hlast, hlater⟩ := hmore element after after' hafter hafterIndex
    rw [Run.bind_of_ok (Rule.speculate_of_ok hrun), Run.bind_of_ok (Rule.speculate_of_ok hexpected)]
    exact ⟨hlast, hlater.of_later hforward (by omega)⟩
  | @failed failure after after' hfailure =>
    cases failure with
    | syntaxError error =>
      obtain ⟨back, hbackIndex, hbackMemo, hattempt⟩ := Rule.speculate_of_syntaxError hrun
      obtain ⟨back', hbackIndex', -, hattempt'⟩ := Rule.speculate_of_syntaxError hexpected
      have hback := hcursor.rewound hafter hbackIndex hbackMemo
      have hmirrors : MirrorsAt tokens sound reach back back' (Rule.trailing tokens level error)
          (Rule.trailing tokens level' error) := by
        intro _ hindex'
        have happroaches := approaches_trailing hlevel hcursor hback hrun hbackIndex hbackMemo
          hfailure hindex'
        exact ⟨trusted_trailing hlevel.expression error hback, hbackIndex ▸ happroaches⟩
      obtain ⟨hlast, hlater⟩ :=
        hmirrors.bind (fun _ _ _ _ ↦ .pure (last _)) hback (by omega)
      rw [Run.bind_of_ok hattempt, Run.bind_of_ok hattempt', hnext, hnext']
      exact ⟨hlast, hbackIndex ▸ hlater⟩
    | _ =>
      rw [Run.bind_of_error (by rw [Rule.speculate, hrun]),
        Run.bind_of_error (by rw [Rule.speculate, hexpected])]
      exact ⟨hafter, .failed trivial⟩

theorem mirrors_blockElements (rounds : Nat) :
    Mirrors tokens sound reach (Rule.blockElements tokens level rounds)
      (Rule.blockElements tokens level' rounds) := by
  induction rounds with
  | zero => exact .pure _
  | succ rounds ih =>
    intro cursor cursor'
    refine .get fun hindex ↦ ?_
    rw [Cursor.nextIs_eq, Cursor.nextIs_eq, Cursor.atEnd_eq, Cursor.atEnd_eq,
      Cursor.rest_congr hindex]
    split
    · exact .pure _
    · refine mirrors_attempt hlevel (fun tree ↦ ([], tree)) (fun _ ↦ rfl) (fun _ ↦ rfl)
        (fun element ↦ ?_) cursor cursor'
      refine .bind (mirrors_blockResult? element) fun result? ↦ ?_
      split
      · exact .pure _
      · exact .bind ih fun _ ↦ .pure _

theorem mirrors_block :
    Mirrors tokens sound (reach + 1) (Rule.block tokens level) (Rule.block tokens level') :=
  .takeExpected fun _ ↦ .bind (mirrors_blockElements hlevel _) fun _ ↦
    .bind (.expect .rightCurly) fun _ ↦ .pure _

/-! ### Conditionals -/

theorem mirrors_elseBranches (rounds : Nat) :
    Mirrors tokens sound (reach + 1) (Rule.elseBranches tokens level rounds)
      (Rule.elseBranches tokens level' rounds) := by
  induction rounds with
  | zero => exact .pure []
  | succ rounds ih =>
    intro cursor cursor'
    refine .get fun hindex ↦ ?_
    simp only [Cursor.nextIsKeyword_eq, Cursor.secondIsKeyword_eq, Cursor.rest_congr hindex]
    split
    · next hwords =>
      obtain ⟨helse, hif⟩ := Bool.and_eq_true_iff.mp hwords
      obtain ⟨elseWord, others, hrest, -⟩ := Reader.exists_of_nextIsKeyword helse
      rw [hrest] at hif
      obtain ⟨ifWord, others, rfl, -⟩ := Reader.exists_of_secondIsKeyword hif
      refine .bind (.skip (Cursor.index_lt tokens hrest)) fun _ after after' hskip ↦ ?_
      have hafter : after.rest tokens = ifWord :: others := by
        cases hskip
        exact Cursor.rest_succ tokens hrest _ rfl
      refine .takeSkipped (Cursor.index_lt tokens hafter) fun _ ↦ ?_
      refine .bind hlevel.expression fun _ ↦ ?_
      refine .bind ((mirrors_block hlevel).mono (by omega)) fun _ ↦ ?_
      exact .bind (ih.mono (by omega)) fun _ ↦ .pure _
    · exact .pure []

theorem mirrors_elseBlock :
    Mirrors tokens sound (reach + 1) (Rule.elseBlock tokens level)
      (Rule.elseBlock tokens level') := by
  intro cursor cursor'
  refine .get fun hindex ↦ ?_
  rw [Cursor.nextIsKeyword_eq, Cursor.nextIsKeyword_eq, Cursor.rest_congr hindex]
  split
  · next hword =>
    obtain ⟨word, others, hrest, -⟩ := Reader.exists_of_nextIsKeyword hword
    exact .bind (.skip (Cursor.index_lt tokens hrest)) fun _ after after' _ ↦
      mirrors_block hlevel after after'
  · exact .pure _

theorem mirrors_conditional :
    Mirrors tokens sound (reach + 1) (Rule.conditional tokens level)
      (Rule.conditional tokens level') := by
  refine .takeKeyword fun _ ↦ .bind hlevel.expression fun _ ↦ ?_
  refine .bind ((mirrors_block hlevel).mono (by omega)) fun _ ↦ ?_
  refine .bind ((mirrors_elseBranches hlevel _).mono (by omega)) fun _ ↦ ?_
  exact .bind ((mirrors_elseBlock hlevel).mono (by omega)) fun _ ↦ .pure _

theorem mirrors_expressionWith :
    Mirrors tokens sound (reach + 1) (Rule.expressionWith tokens level)
      (Rule.expressionWith tokens level') := by
  intro cursor cursor'
  refine .get fun hindex ↦ ?_
  rw [Cursor.nextIs_eq, Cursor.nextIs_eq, Cursor.nextIsKeyword_eq, Cursor.nextIsKeyword_eq,
    Cursor.rest_congr hindex]
  split
  · exact mirrors_block hlevel cursor cursor'
  split
  · exact mirrors_conditional hlevel cursor cursor'
  · exact mirrors_comparison hlevel.expression cursor cursor'

end

end

/-! ### Without a memo -/

section

variable {tokens : Array Token}

/-- Nothing counts as sound, so that a cursor to be trusted remembers nothing. -/
def nothingSound (_ : Nat) (_ : Remembered) : Prop := False

theorem Cursor.Trusted.fresh {cursor : Cursor} (hcursor : cursor.Trusted tokens nothingSound) :
    cursor.Fresh := by
  intro index _
  cases hfound : cursor.memo[index]? with
  | none => rfl
  | some found => exact (hcursor.memo index found hfound).elim

theorem repeats_expressionAfresh (levels : Nat) :
    Repeats tokens nothingSound (Rule.expressionAfresh tokens levels) := by
  intro cursor back hcursor hindex hmemo
  have hlevel : FollowsLevel tokens (Rule.levelAfresh tokens levels)
      (Reader.level tokens.size levels) := follows_levelAfresh levels
  have hreplays := hlevel.replays
  constructor
  · intro tree after hrun
    rw [hrun] at hmemo
    obtain ⟨last, hlast, -⟩ := hreplays.ok hcursor.fresh hcursor.bound hrun hindex hmemo
    exact ⟨last, hlast⟩
  · intro error after hrun
    rw [hrun] at hmemo
    obtain ⟨last, hlast, -⟩ := hreplays.error hcursor.fresh hcursor.bound hrun hindex hmemo
    exact ⟨last, hlast⟩

theorem rebuffed_expressionAfresh (levels : Nat) :
    Rebuffed tokens (Rule.expressionAfresh tokens levels) := by
  cases levels with
  | zero => exact rebuffed_tooDeep
  | succ levels => exact rebuffed_expressionWith _

/-- Without a memo, a lower limit of nesting changes nothing but where it is met. -/
theorem mirrors_levelAfresh (levels : Nat) : ∀ more, levels ≤ more →
    MirrorsLevel tokens nothingSound levels (Rule.levelAfresh tokens levels)
      (Rule.levelAfresh tokens more) := by
  induction levels with
  | zero =>
    intro more hle
    exact ⟨mirrors_typeRule 0 more hle, fun _ _ ↦ .tooDeep, repeats_expressionAfresh 0,
      rebuffed_expressionAfresh more⟩
  | succ levels ih =>
    intro more hle
    refine ⟨mirrors_typeRule (levels + 1) more hle, ?_, repeats_expressionAfresh (levels + 1),
      rebuffed_expressionAfresh more⟩
    obtain ⟨less, rfl⟩ : ∃ less, more = less + 1 := ⟨more - 1, by omega⟩
    exact mirrors_expressionWith (ih less (Nat.le_of_succ_le_succ hle))

end

/-! ### A limit that is none -/

/-- What a rule comes to: a value and the index where it ends, or a failure. -/
def Rule.reading {α : Type} (rule : Rule α) (cursor : Cursor) : Except ParseFailure (α × Nat) :=
  match rule cursor with
  | .ok value after => .ok (value, after.index)
  | .error failure _ => .error failure

/-- It comes to an error from the limit of nesting. -/
def Limited {α : Type} (outcome : Except ParseFailure α) : Prop :=
  ∃ error, outcome = .error (.syntaxError error) ∧ error.IsNesting

section

variable {α : Type} {tokens : Array Token} {index reach : Nat} {rule rule' : Rule α}
  {cursor cursor' : Cursor}

theorem Rule.exists_of_reading_ok {value : α} {stop : Nat}
    (hread : rule.reading cursor = .ok (value, stop)) :
    ∃ after, rule cursor = .ok value after ∧ after.index = stop := by
  unfold Rule.reading at hread
  split at hread
  · next value' after hrun =>
    cases hread
    exact ⟨after, hrun, rfl⟩
  · cases hread

theorem Rule.exists_of_reading_error {failure : ParseFailure}
    (hread : rule.reading cursor = .error failure) :
    ∃ after, rule cursor = .error failure after := by
  unfold Rule.reading at hread
  split at hread
  · cases hread
  · next failure' after hrun =>
    cases hread
    exact ⟨after, hrun⟩

theorem Rule.reading_of_ok {value : α} {after : Cursor} (hrun : rule cursor = .ok value after) :
    rule.reading cursor = .ok (value, after.index) := by
  rw [Rule.reading, hrun]

theorem Rule.reading_of_error {failure : ParseFailure} {after : Cursor}
    (hrun : rule cursor = .error failure after) : rule.reading cursor = .error failure := by
  rw [Rule.reading, hrun]

/-- Two rules of which the first approaches the second come to the same, unless the first is stopped
by the limit. -/
theorem Approaches.reading_eq (h : Approaches tokens index reach (rule cursor) (rule' cursor')) :
    (∃ error, rule.reading cursor = .error (.syntaxError error) ∧
      error.NestsAfter tokens (index + reach)) ∨
    rule.reading cursor = rule'.reading cursor' ∧ ¬ Limited (rule.reading cursor) := by
  generalize hrun : rule cursor = outcome at h
  generalize hexpected : rule' cursor' = expected at h
  cases h with
  | nested herror => exact .inl ⟨_, Rule.reading_of_error hrun, herror⟩
  | ok hindex _ =>
    rw [Rule.reading_of_ok hrun, Rule.reading_of_ok hexpected, hindex]
    refine .inr ⟨rfl, ?_⟩
    rintro ⟨error, hcontrary, -⟩
    cases hcontrary
  | failed hfailure =>
    rw [Rule.reading_of_error hrun, Rule.reading_of_error hexpected]
    refine .inr ⟨rfl, ?_⟩
    rintro ⟨error, herror, hnesting⟩
    cases herror
    exact hfailure.2 hnesting

/-- Only what the second rule comes to matters. -/
theorem Approaches.congr {rule'' : Rule α} {cursor'' : Cursor}
    {outcome : EStateM.Result ParseFailure Cursor α}
    (h : Approaches tokens index reach outcome (rule' cursor'))
    (hsame : rule'.reading cursor' = rule''.reading cursor'') :
    Approaches tokens index reach outcome (rule'' cursor'') := by
  generalize hexpected : rule' cursor' = expected at h
  cases h with
  | nested herror => exact .nested herror
  | ok hindex hforward =>
    rw [Rule.reading_of_ok hexpected] at hsame
    obtain ⟨after, hrun, hafter⟩ := Rule.exists_of_reading_ok hsame.symm
    rw [hrun]
    exact .ok (hafter.trans hindex) hforward
  | failed hfailure =>
    rw [Rule.reading_of_error hexpected] at hsame
    obtain ⟨after, hrun⟩ := Rule.exists_of_reading_error hsame.symm
    rw [hrun]
    exact .failed hfailure

end

section

variable {tokens : Array Token} {levels : Nat} {cursor : Cursor}

theorem reading_expressionAfresh_of_empty (hlevels : tokens.size < levels)
    (hbound : cursor.index ≤ tokens.size) :
    Rule.reading (Rule.expressionAfresh tokens (tokens.size + 1)) { index := cursor.index } =
        Rule.reading (Rule.expressionAfresh tokens levels) cursor ∧
      ¬ Limited (Rule.reading (Rule.expressionAfresh tokens levels) cursor) := by
  have hlevel : MirrorsLevel tokens nothingSound (tokens.size + 1)
      (Rule.levelAfresh tokens (tokens.size + 1)) (Rule.levelAfresh tokens levels) :=
    mirrors_levelAfresh (tokens.size + 1) levels hlevels
  have hempty : Cursor.Trusted tokens nothingSound { index := cursor.index } :=
    ⟨hbound, fun start found hfound ↦ by simp at hfound⟩
  obtain ⟨-, happroaches⟩ := hlevel.expression { index := cursor.index } cursor hempty rfl
  rcases happroaches.reading_eq with ⟨error, -, herror⟩ | ⟨hsame, hmet⟩
  · have hafter := herror.after
    have hbefore := herror.bound
    simp only at hafter
    omega
  · exact ⟨hsame, hsame ▸ hmet⟩

/-- Limits above the number of tokens are never met, and come to the same from every cursor at an
index. -/
theorem reading_expressionAfresh {more : Nat} {cursor' : Cursor} (hlevels : tokens.size < levels)
    (hmore : tokens.size < more) (hbound : cursor.index ≤ tokens.size)
    (hindex : cursor'.index = cursor.index) :
    Rule.reading (Rule.expressionAfresh tokens levels) cursor =
        Rule.reading (Rule.expressionAfresh tokens more) cursor' ∧
      ¬ Limited (Rule.reading (Rule.expressionAfresh tokens levels) cursor) := by
  obtain ⟨hfirst, hmet⟩ := reading_expressionAfresh_of_empty hlevels hbound
  obtain ⟨hsecond, -⟩ := reading_expressionAfresh_of_empty hmore (hindex ▸ hbound)
  rw [hindex] at hsecond
  exact ⟨hfirst.symm.trans hsecond, hmet⟩

end

end LetLang
