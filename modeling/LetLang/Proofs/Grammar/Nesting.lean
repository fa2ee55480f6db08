import LetLang.Proofs.Grammar.Remembering

/-!
# The limit of nesting is all that tells parsers apart

The rules of the grammar are tied together over two levels: on the left over rules that may remember
and may stop early because the nesting passes the limit, on the right over rules that remember
nothing and may open more levels. Started at the same index, the left rule comes to the same value
or the same failure as the right one and ends at the same index, or it stops because of the limit
(`Mirrors`). What is remembered on the left has to be sound in a sense that is left open here, and
stays so.

Every level that a rule opens costs a token, so a rule that may open `reach` more levels is stopped
by the limit only that many tokens further on. A rule that takes a token before it goes one level
down reaches one further than that level (`Mirrors.takeExpected`).

This module has the rules that do not move back. Blocks are the subject of the next one.
-/

set_option autoImplicit false

namespace LetLang

/-- The error reports that the nesting passed the limit. -/
def SyntaxError.IsNesting (error : SyntaxError) : Prop := error.diagnostic.code? = some "P006"

/-- A failure that lies no earlier than the index and does not come from the limit of nesting. -/
def ParseFailure.Ordinary (index : Nat) : ParseFailure → Prop
  | .syntaxError error => (index : Int) ≤ error.position ∧ ¬ error.IsNesting
  | _ => True

theorem ParseFailure.Ordinary.mono {first second : Nat} {failure : ParseFailure}
    (hfailure : failure.Ordinary second) (hle : first ≤ second) : failure.Ordinary first := by
  cases failure with
  | syntaxError error => exact ⟨by have := hfailure.1; omega, hfailure.2⟩
  | _ => trivial

theorem Expected.code_ne (what : Expected) : what.code ≠ "P006" := by
  unfold Expected.code
  split <;> decide

theorem not_isNesting_expected {what : Expected} {position : Int} {token? : Option Token} :
    ¬ SyntaxError.IsNesting ⟨.expected what, position, token?⟩ := by
  simp only [SyntaxError.IsNesting, SyntaxError.diagnostic]
  cases SyntaxError.found? ⟨.expected what, position, token?⟩ with
  | none => simp
  | some token => simpa using what.code_ne

section

variable (tokens : Array Token) (sound : Nat → Remembered → Prop)

/-- The cursor is not beyond the tokens, and what it remembers is sound. -/
structure Cursor.Trusted (cursor : Cursor) : Prop where
  bound : cursor.index ≤ tokens.size
  memo : ∀ start found, cursor.memo[start]? = some found → sound start found

/-- The error comes from the limit of nesting and is about a place between an index and the end. -/
structure SyntaxError.NestsAfter (index : Nat) (error : SyntaxError) : Prop where
  nesting : error.IsNesting
  after : (index : Int) ≤ error.position
  bound : error.position ≤ tokens.size

/-- The first outcome, of a rule started at the index, is the second or comes from the limit of
nesting, met no less than `reach` tokens further on. -/
inductive Approaches {α : Type} (index reach : Nat) :
    EStateM.Result ParseFailure Cursor α → EStateM.Result ParseFailure Cursor α → Prop
  | nested {error : SyntaxError} {after : Cursor}
      {expected : EStateM.Result ParseFailure Cursor α}
      (herror : error.NestsAfter tokens (index + reach)) :
      Approaches index reach (.error (.syntaxError error) after) expected
  | ok {value : α} {after after' : Cursor} (hindex : after'.index = after.index)
      (hforward : index ≤ after.index) : Approaches index reach (.ok value after) (.ok value after')
  | failed {failure : ParseFailure} {after after' : Cursor} (hfailure : failure.Ordinary index) :
      Approaches index reach (.error failure after) (.error failure after')

/-- Started at the two cursors, if they have the same index and the first is to be trusted, the
first rule approaches the second and leaves a cursor that is to be trusted. -/
def MirrorsAt {α : Type} (reach : Nat) (cursor cursor' : Cursor) (rule rule' : Rule α) : Prop :=
  cursor.Trusted tokens sound → cursor'.index = cursor.index →
    (cursorAfter (rule cursor)).Trusted tokens sound ∧
      Approaches tokens cursor.index reach (rule cursor) (rule' cursor')

/-- The first rule approaches the second, wherever they are started. -/
def Mirrors {α : Type} (reach : Nat) (rule rule' : Rule α) : Prop :=
  ∀ cursor cursor', MirrorsAt tokens sound reach cursor cursor' rule rule'

end

section

variable {α β : Type} {tokens : Array Token} {sound : Nat → Remembered → Prop} {reach : Nat}
  {cursor cursor' : Cursor}

theorem SyntaxError.NestsAfter.mono {first second : Nat} {error : SyntaxError}
    (herror : error.NestsAfter tokens second) (hle : first ≤ second) :
    error.NestsAfter tokens first :=
  ⟨herror.nesting, by have := herror.after; omega, herror.bound⟩

/-- What holds of a rule started later, with a shorter reach, holds of it as a part of what was
started earlier. -/
theorem Approaches.of_later {index later less : Nat}
    {outcome expected : EStateM.Result ParseFailure Cursor α}
    (h : Approaches tokens later less outcome expected) (hle : index ≤ later)
    (hreach : index + reach ≤ later + less) : Approaches tokens index reach outcome expected := by
  cases h with
  | nested herror => exact .nested (herror.mono hreach)
  | ok hindex hforward => exact .ok hindex (Nat.le_trans hle hforward)
  | failed hfailure => exact .failed (hfailure.mono hle)

namespace MirrorsAt

theorem pure (value : α) :
    MirrorsAt tokens sound reach cursor cursor' (Pure.pure value) (Pure.pure value) :=
  fun htrusted hindex ↦ ⟨htrusted, .ok hindex (Nat.le_refl _)⟩

theorem get {next next' : Cursor → Rule β}
    (hnext : cursor'.index = cursor.index →
      MirrorsAt tokens sound reach cursor cursor' (next cursor) (next' cursor')) :
    MirrorsAt tokens sound reach cursor cursor' (MonadState.get >>= next)
      (MonadState.get >>= next') :=
  fun htrusted hindex ↦ hnext hindex htrusted hindex

/-- The second rule may have a shorter reach by the number of tokens that the first one took. -/
theorem bindLess {less : Nat} {rule rule' : Rule α} {next next' : α → Rule β}
    (hrule : MirrorsAt tokens sound reach cursor cursor' rule rule')
    (hless : ∀ value after, rule cursor = .ok value after → cursor.index ≤ after.index →
      cursor.index + reach ≤ after.index + less)
    (hnext : ∀ value after after', rule cursor = .ok value after →
      MirrorsAt tokens sound less after after' (next value) (next' value)) :
    MirrorsAt tokens sound reach cursor cursor' (rule >>= next) (rule' >>= next') := by
  intro htrusted hindex
  obtain ⟨hafter, happroaches⟩ := hrule htrusted hindex
  cases hrun : rule cursor with
  | error failure after =>
    rw [hrun] at hafter happroaches
    rw [Run.bind_of_error hrun]
    refine ⟨hafter, ?_⟩
    generalize hexpected : rule' cursor' = expected at happroaches
    cases happroaches with
    | nested herror => exact .nested herror
    | failed hfailure =>
      rw [Run.bind_of_error hexpected]
      exact .failed hfailure
  | ok value middle =>
    rw [hrun] at hafter happroaches
    rw [Run.bind_of_ok hrun]
    generalize hexpected : rule' cursor' = expected at happroaches
    cases happroaches with
    | ok hmiddle hforward =>
      obtain ⟨hlast, hlater⟩ := hnext value middle _ hrun hafter hmiddle
      rw [Run.bind_of_ok hexpected]
      exact ⟨hlast, hlater.of_later hforward (hless value middle hrun hforward)⟩

theorem bind {rule rule' : Rule α} {next next' : α → Rule β}
    (hrule : MirrorsAt tokens sound reach cursor cursor' rule rule')
    (hnext : ∀ value after after', rule cursor = .ok value after →
      MirrorsAt tokens sound reach after after' (next value) (next' value)) :
    MirrorsAt tokens sound reach cursor cursor' (rule >>= next) (rule' >>= next') :=
  hrule.bindLess (fun _ _ _ hforward ↦ by omega) hnext

/-- A rule that takes a token leaves less to reach for. -/
theorem take {rule rule' : Rule α} {next next' : α → Rule β}
    (hrule : MirrorsAt tokens sound (reach + 1) cursor cursor' rule rule')
    (hmoves : ∀ value after, rule cursor = .ok value after → cursor.index < after.index)
    (hnext : ∀ value, Mirrors tokens sound reach (next value) (next' value)) :
    MirrorsAt tokens sound (reach + 1) cursor cursor' (rule >>= next) (rule' >>= next') :=
  hrule.bindLess (fun value after hrun _ ↦ by have := hmoves value after hrun; omega)
    fun value after after' _ ↦ hnext value after after'

theorem throw {failure : ParseFailure} (hfailure : failure.Ordinary cursor.index) :
    MirrorsAt tokens sound reach cursor cursor' (throwThe ParseFailure failure : Rule α)
      (throwThe ParseFailure failure) :=
  fun htrusted _ ↦ ⟨htrusted, .failed hfailure⟩

theorem fail (what : Expected) :
    MirrorsAt tokens sound reach cursor cursor' (Rule.fail tokens what : Rule α)
      (Rule.fail tokens what) := by
  intro htrusted hindex
  rw [Rule.fail_eq, Rule.fail_eq, Cursor.next?, Cursor.next?, hindex]
  exact ⟨htrusted, .failed ⟨Int.le_refl _, not_isNesting_expected⟩⟩

theorem tooDeep {rule' : Rule α} :
    MirrorsAt tokens sound 0 cursor cursor' (Rule.tooDeep tokens) rule' := by
  intro htrusted _
  have hbound := htrusted.bound
  exact ⟨htrusted, .nested ⟨rfl, Int.le_refl _, Int.ofNat_le.mpr hbound⟩⟩

theorem skip (hlt : cursor.index < tokens.size) :
    MirrorsAt tokens sound reach cursor cursor' Rule.skip Rule.skip := by
  intro htrusted hindex
  exact ⟨⟨hlt, htrusted.memo⟩, .ok (congrArg Nat.succ hindex) (Nat.le_succ _)⟩

end MirrorsAt

namespace Mirrors

theorem mono {less : Nat} {rule rule' : Rule α} (hrule : Mirrors tokens sound reach rule rule')
    (hle : less ≤ reach) : Mirrors tokens sound less rule rule' := by
  intro cursor cursor' htrusted hindex
  obtain ⟨hafter, happroaches⟩ := hrule cursor cursor' htrusted hindex
  exact ⟨hafter, happroaches.of_later (Nat.le_refl _) (by omega)⟩

theorem pure (value : α) : Mirrors tokens sound reach (Pure.pure value) (Pure.pure value) :=
  fun _ _ ↦ .pure value

theorem bind {rule rule' : Rule α} {next next' : α → Rule β}
    (hrule : Mirrors tokens sound reach rule rule')
    (hnext : ∀ value, Mirrors tokens sound reach (next value) (next' value)) :
    Mirrors tokens sound reach (rule >>= next) (rule' >>= next') :=
  fun cursor cursor' ↦ (hrule cursor cursor').bind fun value after after' _ ↦
    hnext value after after'

end Mirrors

theorem Cursor.rest_congr (hindex : cursor'.index = cursor.index) :
    cursor'.rest tokens = cursor.rest tokens := by
  rw [Cursor.rest, hindex, Cursor.rest]

theorem Cursor.previous?_congr (hindex : cursor'.index = cursor.index) :
    cursor'.previous? tokens = cursor.previous? tokens := by
  rw [Cursor.previous?, hindex, Cursor.previous?]

namespace Mirrors

theorem accept (kind : TokenKind) :
    Mirrors tokens sound reach (Rule.accept tokens kind) (Rule.accept tokens kind) := by
  intro cursor cursor'
  refine .get fun hindex ↦ ?_
  rw [Cursor.nextIs_eq, Cursor.nextIs_eq, Cursor.rest_congr hindex]
  split
  · next hnext =>
    obtain ⟨token, others, hrest, -⟩ := Reader.exists_of_nextIs hnext
    exact .bind (.skip (Cursor.index_lt tokens hrest)) fun _ _ _ _ ↦ .pure true
  · exact .pure false

theorem expect (kind : TokenKind) :
    Mirrors tokens sound reach (Rule.expect tokens kind) (Rule.expect tokens kind) := by
  intro cursor cursor'
  refine .get fun hindex ↦ ?_
  rw [Cursor.next?_eq, Cursor.next?_eq, Cursor.rest_congr hindex]
  cases hrest : cursor.rest tokens with
  | nil => exact .fail _
  | cons token others =>
    simp only [List.head?_cons]
    split
    · exact .bind (.skip (Cursor.index_lt tokens hrest)) fun _ _ _ _ ↦ .pure _
    · exact .fail _

theorem expectKeyword (word : String) :
    Mirrors tokens sound reach (Rule.expectKeyword tokens word)
      (Rule.expectKeyword tokens word) := by
  intro cursor cursor'
  refine .get fun hindex ↦ ?_
  rw [Cursor.nextIsKeyword_eq, Cursor.nextIsKeyword_eq, Cursor.rest_congr hindex]
  split
  · next hnext =>
    obtain ⟨token, others, hrest, -⟩ := Reader.exists_of_nextIsKeyword hnext
    exact .skip (Cursor.index_lt tokens hrest)
  · exact .fail _

theorem advance :
    Mirrors tokens sound reach (Rule.advance tokens) (Rule.advance tokens) := by
  have hread : Mirrors tokens sound reach (do
      let cursor ← MonadState.get
      if tokens.size < cursor.index then throwThe ParseFailure .outOfRange
      return cursor.previous? tokens : Rule (Option Token)) (do
      let cursor ← MonadState.get
      if tokens.size < cursor.index then throwThe ParseFailure .outOfRange
      return cursor.previous? tokens) := by
    intro cursor cursor'
    refine .get fun hindex ↦ ?_
    rw [Cursor.previous?_congr hindex, hindex]
    split
    · exact .bind (.throw trivial) fun _ _ _ _ ↦ .pure _
    · exact .pure _
  intro cursor cursor'
  refine .get fun hindex ↦ ?_
  rw [Cursor.atEnd_eq, Cursor.atEnd_eq, Cursor.rest_congr hindex]
  split
  · next hgo =>
    cases hrest : cursor.rest tokens with
    | nil => simp [hrest, Reader.atEnd] at hgo
    | cons token others =>
      exact .bind (.skip (Cursor.index_lt tokens hrest)) fun _ after after' _ ↦ hread after after'
  · exact hread cursor cursor'

/-- A demanded token leaves less to reach for. -/
theorem takeExpected {kind : TokenKind} {next next' : Lexeme → Rule β}
    (hnext : ∀ value, Mirrors tokens sound reach (next value) (next' value)) :
    Mirrors tokens sound (reach + 1) (Rule.expect tokens kind >>= next)
      (Rule.expect tokens kind >>= next') := by
  intro cursor cursor'
  refine .take (expect kind cursor cursor') (fun value after hrun ↦ ?_) hnext
  cases hnextIs : Reader.nextIs kind (cursor.rest tokens) with
  | true =>
    obtain ⟨token, others, hrest, hkind⟩ := Reader.exists_of_nextIs hnextIs
    rw [Rule.expect_of_rest hrest hkind] at hrun
    cases hrun
    exact Nat.lt_succ_self _
  | false =>
    rw [Rule.expect_of_not hnextIs] at hrun
    cases hrun

/-- So does a demanded keyword. -/
theorem takeKeyword {word : String} {next next' : Unit → Rule β}
    (hnext : ∀ value, Mirrors tokens sound reach (next value) (next' value)) :
    Mirrors tokens sound (reach + 1) (Rule.expectKeyword tokens word >>= next)
      (Rule.expectKeyword tokens word >>= next') := by
  intro cursor cursor'
  refine .take (expectKeyword word cursor cursor') (fun value after hrun ↦ ?_) hnext
  unfold Rule.expectKeyword at hrun
  rw [Run.get_bind] at hrun
  split at hrun
  · cases hrun
    exact Nat.lt_succ_self _
  · cases hrun

end Mirrors

theorem MirrorsAt.takeSkipped {next next' : Unit → Rule β} (hlt : cursor.index < tokens.size)
    (hnext : ∀ value, Mirrors tokens sound reach (next value) (next' value)) :
    MirrorsAt tokens sound (reach + 1) cursor cursor' (Rule.skip >>= next)
      (Rule.skip >>= next') := by
  refine .take (.skip hlt) (fun value after hrun ↦ ?_) hnext
  cases hrun
  exact Nat.lt_succ_self _

/-! ### Lists and types -/

open Mirrors

theorem mirrors_afterCommas {item item' : Rule α} (hitem : Mirrors tokens sound reach item item')
    (rounds : Nat) :
    Mirrors tokens sound reach (Rule.afterCommas tokens item rounds)
      (Rule.afterCommas tokens item' rounds) := by
  induction rounds with
  | zero => exact .pure []
  | succ rounds ih =>
    refine .bind (accept .comma) fun found ↦ ?_
    split
    · exact .bind hitem fun _ ↦ .bind ih fun _ ↦ .pure _
    · exact .pure []

theorem mirrors_listed {item item' : Rule α} (hitem : Mirrors tokens sound reach item item') :
    Mirrors tokens sound (reach + 1) (Rule.listed tokens item) (Rule.listed tokens item') := by
  refine .takeExpected fun _ cursor cursor' ↦ .get fun hindex ↦ ?_
  rw [Cursor.nextIs_eq, Cursor.nextIs_eq, Cursor.rest_congr hindex]
  split
  · exact bind (expect .rightParen) (fun _ ↦ .pure []) cursor cursor'
  · refine bind hitem (fun _ ↦ bind (mirrors_afterCommas hitem _) fun _ ↦ ?_) cursor cursor'
    exact bind (expect .rightParen) fun _ ↦ .pure _

theorem mirrors_typeWith {function function' : Rule Tree}
    (hfunction : Mirrors tokens sound reach function function') :
    Mirrors tokens sound reach (Rule.typeWith tokens function)
      (Rule.typeWith tokens function') := by
  intro cursor cursor'
  refine .get fun hindex ↦ ?_
  rw [Cursor.next?_eq, Cursor.next?_eq, Cursor.rest_congr hindex]
  cases hrest : cursor.rest tokens with
  | nil => exact .fail _
  | cons token others =>
    simp only [List.head?_cons]
    split
    · refine .bind (.skip (Cursor.index_lt tokens hrest)) fun _ _ _ _ ↦ ?_
      split
      · exact .pure _
      · exact .throw trivial
    split
    · exact hfunction cursor cursor'
    · exact .fail _

theorem mirrors_parameter {type type' : Rule Tree} (htype : Mirrors tokens sound reach type type') :
    Mirrors tokens sound reach (Rule.parameter tokens type) (Rule.parameter tokens type') :=
  .bind (expect .identifier) fun _ ↦ .bind (expect .colon) fun _ ↦ .bind htype fun _ ↦ .pure _

theorem mirrors_functionType {type type' : Rule Tree}
    (htype : Mirrors tokens sound reach type type') :
    Mirrors tokens sound (reach + 1) (Rule.functionType tokens type)
      (Rule.functionType tokens type') := by
  refine .bind (mirrors_listed (mirrors_parameter htype)) fun _ ↦ .takeExpected fun _ ↦ ?_
  exact .bind htype fun _ ↦ .pure _

theorem mirrors_typeRule (levels : Nat) : ∀ more, levels ≤ more →
    Mirrors tokens sound levels (Rule.typeRule tokens levels) (Rule.typeRule tokens more) := by
  induction levels with
  | zero =>
    intro more _
    cases more with
    | zero => exact mirrors_typeWith fun _ _ ↦ .tooDeep
    | succ more => exact mirrors_typeWith fun _ _ ↦ .tooDeep
  | succ levels ih =>
    intro more hle
    obtain ⟨more, rfl⟩ : ∃ less, more = less + 1 := ⟨more - 1, by omega⟩
    exact mirrors_typeWith (mirrors_functionType (ih more (Nat.le_of_succ_le_succ hle)))

/-! ### Expressions -/

theorem mirrors_typedLiteral {token : Token} (hlt : cursor.index < tokens.size) :
    MirrorsAt tokens sound reach cursor cursor' (Rule.typedLiteral token)
      (Rule.typedLiteral token) := by
  cases hnumber : token.number? with
  | some number =>
    unfold Rule.typedLiteral
    simp only [hnumber]
    exact .get fun _ ↦ .bind (.skip hlt) fun _ _ _ _ ↦ .pure number
  | none =>
    intro htrusted hindex
    have hrun : ∀ now : Cursor, Rule.typedLiteral token now =
        .error (.syntaxError ⟨.expected .expression, now.index, some token⟩)
          { now with index := now.index + 1 } := by
      intro now
      unfold Rule.typedLiteral
      simp only [hnumber]
      rfl
    rw [hrun, hrun, hindex]
    exact ⟨⟨hlt, htrusted.memo⟩, .failed ⟨Int.le_refl _, not_isNesting_expected⟩⟩

theorem mirrors_chain {operation? : TokenKind → Option ArithOp} {operand operand' : Rule Tree}
    (hoperand : Mirrors tokens sound reach operand operand') (rounds : Nat) :
    ∀ left, Mirrors tokens sound reach (Rule.chain tokens operation? operand rounds left)
      (Rule.chain tokens operation? operand' rounds left) := by
  induction rounds with
  | zero => exact fun left ↦ .pure left
  | succ rounds ih =>
    intro left cursor cursor'
    refine .get fun hindex ↦ ?_
    rw [Cursor.next?_eq, Cursor.next?_eq, Cursor.rest_congr hindex]
    cases hop : (cursor.rest tokens).head?.bind (operation? ·.kind) with
    | none => exact .pure left
    | some op =>
      obtain ⟨operator, hoperator, -⟩ := Option.bind_eq_some_iff.mp hop
      obtain ⟨others, hrest⟩ := List.head?_eq_some_iff.mp hoperator
      refine .bind (.skip (Cursor.index_lt tokens hrest)) fun _ after after' _ ↦ ?_
      exact bind hoperand (fun right ↦ ih _) after after'

section

variable {level level' : Level}
  (hexpression : Mirrors tokens sound reach level.expression level'.expression)

include hexpression

theorem mirrors_factor :
    Mirrors tokens sound (reach + 1) (Rule.factor tokens level) (Rule.factor tokens level') := by
  intro cursor cursor'
  refine .get fun hindex ↦ ?_
  rw [Cursor.next?_eq, Cursor.next?_eq, Cursor.rest_congr hindex]
  cases hrest : cursor.rest tokens with
  | nil => exact .fail _
  | cons token others =>
    have hlt := Cursor.index_lt tokens hrest
    simp only [List.head?_cons]
    split
    · exact .bind (.skip hlt) fun _ _ _ _ ↦ .pure _
    split
    · exact mirrors_typedLiteral hlt
    split
    · refine .bind (.skip hlt) fun _ after after' _ ↦ .get fun hindex ↦ ?_
      rw [Cursor.nextIs_eq, Cursor.nextIs_eq, Cursor.rest_congr hindex]
      split
      · exact bind (mirrors_listed hexpression) (fun _ ↦ .pure _) after after'
      · exact .pure _
    split
    · exact .takeSkipped hlt fun _ ↦
        .bind hexpression fun _ ↦ .bind (expect .rightParen) fun _ ↦ .pure _
    · exact .fail _

theorem mirrors_term :
    Mirrors tokens sound (reach + 1) (Rule.term tokens level) (Rule.term tokens level') := by
  have hfactor : Mirrors tokens sound (reach + 1) (Rule.factor tokens level)
      (Rule.factor tokens level') := mirrors_factor hexpression
  refine .bind (accept .minus) fun found ↦ ?_
  split
  · exact .bind hfactor fun _ ↦ mirrors_chain hfactor _ _
  · exact .bind hfactor fun _ ↦ mirrors_chain hfactor _ _

theorem mirrors_additive :
    Mirrors tokens sound (reach + 1) (Rule.additive tokens level) (Rule.additive tokens level') :=
  .bind (mirrors_term hexpression) fun _ ↦ mirrors_chain (mirrors_term hexpression) _ _

theorem mirrors_comparison :
    Mirrors tokens sound (reach + 1) (Rule.comparison tokens level)
      (Rule.comparison tokens level') := by
  refine .bind (mirrors_additive hexpression) fun left cursor cursor' ↦ .get fun hindex ↦ ?_
  rw [Cursor.next?_eq, Cursor.next?_eq, Cursor.rest_congr hindex]
  cases hrest : cursor.rest tokens with
  | nil => exact .pure _
  | cons token others =>
    simp only [List.head?_cons]
    split
    · refine .bind (.skip (Cursor.index_lt tokens hrest)) fun _ after after' _ ↦ ?_
      split
      · exact bind (mirrors_additive hexpression) (fun _ ↦ .pure _) after after'
      · exact .throw trivial
    · exact .pure _

/-! ### Statements -/

theorem mirrors_assignment :
    Mirrors tokens sound reach (Rule.assignment tokens level) (Rule.assignment tokens level') :=
  .bind (expect .identifier) fun _ ↦ .bind (expect .assignment) fun _ ↦
    .bind hexpression fun _ ↦ .bind (expect .semicolon) fun _ ↦ .pure _

theorem mirrors_expressionStatement :
    Mirrors tokens sound reach (Rule.expressionStatement tokens level)
      (Rule.expressionStatement tokens level') := by
  refine .bind hexpression fun expression ↦ ?_
  split
  · exact .bind (accept .semicolon) fun _ ↦ .pure _
  · exact .bind (expect .semicolon) fun _ ↦ .pure _

variable (htype : Mirrors tokens sound reach level.type level'.type)

include htype

theorem mirrors_declaration :
    Mirrors tokens sound reach (Rule.declaration tokens level)
      (Rule.declaration tokens level') := by
  refine .bind advance fun token? ↦ ?_
  split
  · exact fun _ _ ↦ .throw trivial
  split
  · exact fun _ _ ↦ .throw trivial
  refine .bind (expect .identifier) fun _ ↦ .bind (expect .colon) fun _ ↦ .bind htype fun _ ↦ ?_
  exact .bind (expect .assignment) fun _ ↦ .bind hexpression fun _ ↦
    .bind (expect .semicolon) fun _ ↦ .pure _

theorem mirrors_statement :
    Mirrors tokens sound reach (Rule.statement tokens level) (Rule.statement tokens level') := by
  intro cursor cursor'
  refine .get fun hindex ↦ ?_
  simp only [Cursor.nextIsKeyword_eq, Cursor.nextIs_eq, Cursor.secondIs_eq,
    Cursor.rest_congr hindex]
  split
  · exact mirrors_declaration hexpression htype cursor cursor'
  split
  · exact mirrors_assignment hexpression cursor cursor'
  · exact mirrors_expressionStatement hexpression cursor cursor'

theorem mirrors_statements (rounds : Nat) :
    Mirrors tokens sound reach (Rule.statements tokens level rounds)
      (Rule.statements tokens level' rounds) := by
  induction rounds with
  | zero => exact .pure []
  | succ rounds ih =>
    intro cursor cursor'
    refine .get fun hindex ↦ ?_
    rw [Cursor.atEnd_eq, Cursor.atEnd_eq, Cursor.rest_congr hindex]
    split
    · exact .pure []
    · exact bind (mirrors_statement hexpression htype) (fun _ ↦ bind ih fun _ ↦ .pure _)
        cursor cursor'

end

/-! ### Blocks -/

theorem mirrors_blockResult? (element : Tree) :
    Mirrors tokens sound reach (Rule.blockResult? tokens element)
      (Rule.blockResult? tokens element) := by
  intro cursor cursor'
  unfold Rule.blockResult?
  split
  · refine .get fun hindex ↦ ?_
    rw [Cursor.previous?_congr hindex, Cursor.nextIs_eq, Cursor.nextIs_eq, Cursor.rest_congr hindex]
    split
    · split
      · exact .pure _
      · exact .throw trivial
    · exact .pure none
  · exact .pure none

end

end LetLang
