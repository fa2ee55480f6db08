import LetLang.Proofs.Grammar.Coherence

/-!
# Rules move on

A rule of the grammar leaves the cursor among the tokens and never before the place where it
started, whether it succeeds or fails; where it succeeds, the tokens that it passed are not the end
of the stream, and there is at least one of them unless the rule is that of whole programs
(`Consumes`, `consumes_rule`). This holds over any memo whose trees end behind their start and span
no end of the stream (`Spans`), so also where the cursor jumps to the end of a remembered tree.

Two statements go into each argument: what a rule takes at least, and that the rules after it do not
move back. `ConsumesAt.bind` is about a rule that takes tokens before others do what they like, and
`ConsumesAt.andThen` passes over a rule that need not take anything, such as the move past a token
that may stand still at the end of the stream.

Each round of a loop over statements, elements of a block, or items of a list takes a token. So
these loops end by themselves: beyond the number of tokens, more rounds make no difference
(`rounds_irrelevant`).
-/

set_option autoImplicit false

namespace LetLang

/-- The number of tokens that a rule takes at least. A program may be empty. -/
def RuleName.least : RuleName → Nat
  | program => 0
  | _ => 1

theorem RuleName.least_of_ne_program {name : RuleName} (hname : name ≠ .program) :
    name.least = 1 := by
  cases name with
  | program => exact absurd rfl hname
  | _ => rfl

section

variable (tokens : Array Token)

/-- No token from one index to before the other ends the stream. -/
def Unended (start stop : Nat) : Prop :=
  ∀ index token, start ≤ index → index < stop → tokens[index]? = some token →
    token.kind ≠ .endOfStream

/-- What is remembered at an index is an error, or a tree over at least one of the tokens from there
on, none of which ends the stream. -/
def Spans (start : Nat) : Remembered → Prop
  | .parsed _ stop => start < stop ∧ stop ≤ tokens.size ∧ Unended tokens start stop
  | .failed _ => True

/-- Started at the cursor, if that is to be trusted, the rule leaves a cursor to be trusted that is
not before it. If the rule succeeds, it took at least the given number of tokens, and none of those
it took ends the stream. -/
def ConsumesAt {α : Type} (least : Nat) (cursor : Cursor) (rule : Rule α) : Prop :=
  cursor.Trusted tokens (Spans tokens) →
    match rule cursor with
    | .ok _ after => after.Trusted tokens (Spans tokens) ∧ cursor.index + least ≤ after.index ∧
        Unended tokens cursor.index after.index
    | .error _ after => after.Trusted tokens (Spans tokens) ∧ cursor.index ≤ after.index

/-- The rule moves on, wherever it is started. -/
def Consumes {α : Type} (least : Nat) (rule : Rule α) : Prop :=
  ∀ cursor, ConsumesAt tokens least cursor rule

end

section

variable {α β : Type} {tokens : Array Token} {cursor : Cursor} {least : Nat}

theorem unended_self (index : Nat) : Unended tokens index index :=
  fun _ _ hle hlt _ ↦ absurd hlt (Nat.not_lt.mpr hle)

theorem Unended.trans {start middle stop : Nat} (hfirst : Unended tokens start middle)
    (hsecond : Unended tokens middle stop) : Unended tokens start stop := by
  intro index token hle hlt htoken
  by_cases hbefore : index < middle
  · exact hfirst index token hle hbefore htoken
  · exact hsecond index token (Nat.not_lt.mp hbefore) hlt htoken

theorem unended_succ {token : Token} {others : List Token}
    (hrest : cursor.rest tokens = token :: others) (hend : token.kind ≠ .endOfStream) :
    Unended tokens cursor.index (cursor.index + 1) := by
  intro index other hle hlt hother
  obtain rfl : index = cursor.index := by omega
  have hnext : cursor.next? tokens = some token := by rw [Cursor.next?_eq, hrest, List.head?_cons]
  obtain rfl : other = token := Option.some.inj (hother.symm.trans hnext)
  exact hend

/-! ### Tokens that do not end the stream -/

theorem TokenKind.ne_endOfStream_of_isLiteral {kind : TokenKind} (hkind : kind.isLiteral = true) :
    kind ≠ .endOfStream := by
  rintro rfl
  cases hkind

theorem TokenKind.ne_endOfStream_of_isComparison {kind : TokenKind}
    (hkind : kind.isComparison = true) : kind ≠ .endOfStream := by
  rintro rfl
  cases hkind

theorem Reader.exists_of_operation {input : List Token} {operation? : TokenKind → Option ArithOp}
    {op : ArithOp} (hend : operation? .endOfStream = none)
    (hop : input.head?.bind (operation? ·.kind) = some op) :
    ∃ token others, input = token :: others ∧ token.kind ≠ .endOfStream := by
  obtain ⟨token, htoken, hkind⟩ := Option.bind_eq_some_iff.mp hop
  obtain ⟨others, hinput⟩ := List.head?_eq_some_iff.mp htoken
  refine ⟨token, others, hinput, fun hcontrary ↦ ?_⟩
  rw [hcontrary, hend] at hkind
  cases hkind

theorem Reader.exists_of_keywords {input : List Token} {word second : String}
    (hwords : (nextIsKeyword word input && secondIsKeyword second input) = true) :
    ∃ token next others, input = token :: next :: others ∧ token.kind ≠ .endOfStream ∧
      next.kind ≠ .endOfStream := by
  obtain ⟨hword, hsecond⟩ := Bool.and_eq_true_iff.mp hwords
  obtain ⟨token, others, rfl, htoken⟩ := exists_of_nextIsKeyword hword
  obtain ⟨next, others, rfl, hnext⟩ := exists_of_secondIsKeyword hsecond
  exact ⟨token, next, others, rfl, Token.kind_ne_endOfStream_of_isKeyword htoken,
    Token.kind_ne_endOfStream_of_isKeyword hnext⟩

theorem Cursor.rest_of_skip {token : Token} {others : List Token} {after : Cursor}
    (hrest : cursor.rest tokens = token :: others) (hskip : Rule.skip cursor = .ok () after) :
    after.rest tokens = others := by
  cases hskip
  exact Cursor.rest_succ tokens hrest _ rfl

/-! ### Rules one after the other -/

namespace ConsumesAt

theorem of_ok {rule : Rule α} {value : α} {after : Cursor}
    (hconsumes : ConsumesAt tokens least cursor rule)
    (hcursor : cursor.Trusted tokens (Spans tokens)) (hrun : rule cursor = .ok value after) :
    after.Trusted tokens (Spans tokens) ∧ cursor.index + least ≤ after.index ∧
      Unended tokens cursor.index after.index := by
  have hafter := hconsumes hcursor
  rwa [hrun] at hafter

theorem of_error {rule : Rule α} {failure : ParseFailure} {after : Cursor}
    (hconsumes : ConsumesAt tokens least cursor rule)
    (hcursor : cursor.Trusted tokens (Spans tokens)) (hrun : rule cursor = .error failure after) :
    after.Trusted tokens (Spans tokens) ∧ cursor.index ≤ after.index := by
  have hafter := hconsumes hcursor
  rwa [hrun] at hafter

/-- However the rule ends, the cursor that it leaves is to be trusted. -/
theorem trusted {rule : Rule α} (hconsumes : ConsumesAt tokens least cursor rule)
    (hcursor : cursor.Trusted tokens (Spans tokens)) :
    (cursorAfter (rule cursor)).Trusted tokens (Spans tokens) := by
  cases hrun : rule cursor with
  | ok value after => exact (hconsumes.of_ok hcursor hrun).1
  | error failure after => exact (hconsumes.of_error hcursor hrun).1

theorem weaken {rule : Rule α} (hconsumes : ConsumesAt tokens least cursor rule) :
    ConsumesAt tokens 0 cursor rule := by
  intro hcursor
  cases hrun : rule cursor with
  | ok value after =>
    obtain ⟨hafter, hle, hunended⟩ := hconsumes.of_ok hcursor hrun
    exact ⟨hafter, by omega, hunended⟩
  | error failure after => exact hconsumes.of_error hcursor hrun

theorem pure (value : α) : ConsumesAt tokens 0 cursor (Pure.pure value) :=
  fun hcursor ↦ ⟨hcursor, Nat.le_refl _, unended_self _⟩

theorem throw (failure : ParseFailure) :
    ConsumesAt tokens least cursor (throwThe ParseFailure failure : Rule α) :=
  fun hcursor ↦ ⟨hcursor, Nat.le_refl _⟩

theorem fail (what : Expected) : ConsumesAt tokens least cursor (Rule.fail tokens what : Rule α) :=
  fun hcursor ↦ ⟨hcursor, Nat.le_refl _⟩

theorem tooDeep : ConsumesAt tokens least cursor (Rule.tooDeep tokens : Rule α) :=
  fun hcursor ↦ ⟨hcursor, Nat.le_refl _⟩

theorem get {next : Cursor → Rule β} (hnext : ConsumesAt tokens least cursor (next cursor)) :
    ConsumesAt tokens least cursor (MonadState.get >>= next) := hnext

theorem skip {token : Token} {others : List Token} (hrest : cursor.rest tokens = token :: others)
    (hend : token.kind ≠ .endOfStream) : ConsumesAt tokens 1 cursor Rule.skip :=
  fun hcursor ↦ ⟨⟨Cursor.index_lt tokens hrest, hcursor.memo⟩, Nat.le_refl _,
    unended_succ hrest hend⟩

/-- What two rules take, one after the other, is what each of them takes. -/
theorem bindAdd {more : Nat} {rule : Rule α} {next : α → Rule β}
    (hrule : ConsumesAt tokens least cursor rule)
    (hnext : ∀ value after, rule cursor = .ok value after →
      ConsumesAt tokens more after (next value)) :
    ConsumesAt tokens (least + more) cursor (rule >>= next) := by
  intro hcursor
  cases hrun : rule cursor with
  | error failure after =>
    rw [Run.bind_of_error hrun]
    exact hrule.of_error hcursor hrun
  | ok value middle =>
    rw [Run.bind_of_ok hrun]
    obtain ⟨hmiddle, hle, hunended⟩ := hrule.of_ok hcursor hrun
    have hlater := hnext value middle hrun
    cases hlast : next value middle with
    | error failure after =>
      obtain ⟨hafter, hforward⟩ := hlater.of_error hmiddle hlast
      exact ⟨hafter, by omega⟩
    | ok result after =>
      obtain ⟨hafter, hforward, hrest⟩ := hlater.of_ok hmiddle hlast
      exact ⟨hafter, by omega, hunended.trans hrest⟩

theorem bind {rule : Rule α} {next : α → Rule β} (hrule : ConsumesAt tokens least cursor rule)
    (hnext : ∀ value after, rule cursor = .ok value after →
      ConsumesAt tokens 0 after (next value)) :
    ConsumesAt tokens least cursor (rule >>= next) :=
  hrule.bindAdd hnext

/-- The first rule need not take anything. -/
theorem andThen {rule : Rule α} {next : α → Rule β} (hrule : ConsumesAt tokens 0 cursor rule)
    (hnext : ∀ value after, rule cursor = .ok value after →
      ConsumesAt tokens least after (next value)) :
    ConsumesAt tokens least cursor (rule >>= next) := by
  have hboth := hrule.bindAdd hnext
  rwa [Nat.zero_add] at hboth

end ConsumesAt

namespace Consumes

theorem weaken {rule : Rule α} (hrule : Consumes tokens least rule) : Consumes tokens 0 rule :=
  fun cursor ↦ (hrule cursor).weaken

theorem pure (value : α) : Consumes tokens 0 (Pure.pure value) := fun _ ↦ .pure value

theorem throw (failure : ParseFailure) :
    Consumes tokens least (throwThe ParseFailure failure : Rule α) := fun _ ↦ .throw failure

theorem bind {rule : Rule α} {next : α → Rule β} (hrule : Consumes tokens least rule)
    (hnext : ∀ value, Consumes tokens 0 (next value)) : Consumes tokens least (rule >>= next) :=
  fun cursor ↦ (hrule cursor).bind fun value after _ ↦ hnext value after

theorem andThen {rule : Rule α} {next : α → Rule β} (hrule : Consumes tokens 0 rule)
    (hnext : ∀ value, Consumes tokens least (next value)) : Consumes tokens least (rule >>= next) :=
  fun cursor ↦ (hrule cursor).andThen fun value after _ ↦ hnext value after

/-! ### Single tokens -/

theorem expect {kind : TokenKind} (hkind : kind ≠ .endOfStream) :
    Consumes tokens 1 (Rule.expect tokens kind) := by
  intro cursor
  refine .get ?_
  rw [Cursor.next?_eq]
  cases hrest : cursor.rest tokens with
  | nil => exact .fail _
  | cons token others =>
    simp only [List.head?_cons]
    split
    · next htoken =>
      have hend : token.kind ≠ .endOfStream := by rwa [beq_iff_eq.mp htoken]
      exact .bind (.skip hrest hend) fun _ _ _ ↦ .pure _
    · exact .fail _

theorem accept {kind : TokenKind} (hkind : kind ≠ .endOfStream) :
    Consumes tokens 0 (Rule.accept tokens kind) := by
  intro cursor
  refine .get ?_
  rw [Cursor.nextIs_eq]
  split
  · next hnext =>
    obtain ⟨token, others, hrest, htoken⟩ := Reader.exists_of_nextIs hnext
    exact .bind (.weaken (.skip hrest (htoken ▸ hkind))) fun _ _ _ ↦ .pure _
  · exact .pure _

theorem expectKeyword (word : String) : Consumes tokens 1 (Rule.expectKeyword tokens word) := by
  intro cursor
  refine .get ?_
  rw [Cursor.nextIsKeyword_eq]
  split
  · next hnext =>
    obtain ⟨token, others, hrest, hword⟩ := Reader.exists_of_nextIsKeyword hnext
    exact .skip hrest (Token.kind_ne_endOfStream_of_isKeyword hword)
  · exact .fail _

/-- At the end of the stream the cursor stands still, so nothing may be taken. -/
theorem advance : Consumes tokens 0 (Rule.advance tokens) := by
  have hread : Consumes tokens 0 (do
      let cursor ← MonadState.get
      if tokens.size < cursor.index then throwThe ParseFailure .outOfRange
      return cursor.previous? tokens : Rule (Option Token)) := by
    intro cursor
    refine .get ?_
    split
    · exact .bind (.throw _) fun _ _ _ ↦ .pure _
    · exact .pure _
  intro cursor
  refine .get ?_
  rw [Cursor.atEnd_eq]
  split
  · next hgo =>
    cases hrest : cursor.rest tokens with
    | nil => simp [hrest, Reader.atEnd] at hgo
    | cons token others =>
      have hend : token.kind ≠ .endOfStream := by simpa [hrest, Reader.atEnd] using hgo
      exact .bind (.weaken (.skip hrest hend)) fun _ after _ ↦ hread after
  · exact hread cursor

theorem record (event : Event) : Consumes tokens 0 (Rule.record event) :=
  fun _ hcursor ↦ ⟨⟨hcursor.bound, hcursor.memo⟩, Nat.le_refl _, unended_self _⟩

/-! ### Moving back and remembering -/

/-- A rule that is tried and fails leaves the cursor where it was. -/
theorem speculate {rule : Rule α} (hrule : Consumes tokens least rule) :
    Consumes tokens 0 (Rule.speculate rule) := by
  intro cursor hcursor
  unfold Rule.speculate
  cases hrun : rule cursor with
  | ok value after => exact (hrule cursor).weaken.of_ok hcursor hrun
  | error failure after =>
    have hafter := (hrule cursor).of_error hcursor hrun
    cases failure with
    | syntaxError error =>
      exact ⟨⟨hcursor.bound, hafter.1.memo⟩, Nat.le_refl _, unended_self _⟩
    | _ => exact hafter

/-- A remembered tree takes the tokens that it took when it was read. -/
theorem remembered {rule : Rule Tree} (hrule : Consumes tokens 1 rule) :
    Consumes tokens 1 (Rule.remembered rule) := by
  intro cursor hcursor
  unfold Rule.remembered
  cases hmemo : cursor.memo[cursor.index]? with
  | some found =>
    have hfound := hcursor.memo _ _ hmemo
    cases found with
    | parsed tree stop => exact ⟨⟨hfound.2.1, hcursor.memo⟩, hfound.1, hfound.2.2⟩
    | failed error => exact ⟨hcursor, Nat.le_refl _⟩
  | none =>
    cases hrun : rule cursor with
    | ok tree after =>
      obtain ⟨hafter, hle, hunended⟩ := (hrule cursor).of_ok hcursor hrun
      exact ⟨hafter.remember ⟨hle, hafter.bound, hunended⟩, hle, hunended⟩
    | error failure after =>
      obtain ⟨hafter, hle⟩ := (hrule cursor).of_error hcursor hrun
      cases failure with
      | syntaxError error => exact ⟨hafter.remember trivial, hle⟩
      | _ => exact ⟨hafter, hle⟩

end Consumes

/-! ### Lists and types -/

open Consumes

theorem consumes_afterCommas {item : Rule α} (hitem : Consumes tokens least item) (rounds : Nat) :
    Consumes tokens 0 (Rule.afterCommas tokens item rounds) := by
  induction rounds with
  | zero => exact .pure []
  | succ rounds ih =>
    refine .bind (accept (by decide)) fun found ↦ ?_
    split
    · exact .bind hitem.weaken fun _ ↦ .bind ih fun _ ↦ .pure _
    · exact .pure []

theorem consumes_listed {item : Rule α} (hitem : Consumes tokens least item) :
    Consumes tokens 1 (Rule.listed tokens item) := by
  refine .bind (expect (by decide)) fun _ cursor ↦ .get ?_
  split
  · exact bind (expect (by decide)).weaken (fun _ ↦ .pure []) cursor
  · refine bind hitem.weaken (fun _ ↦ bind (consumes_afterCommas hitem _) fun _ ↦ ?_) cursor
    exact bind (expect (by decide)).weaken fun _ ↦ .pure _

theorem consumes_typeWith {function : Rule Tree} (hfunction : Consumes tokens 1 function) :
    Consumes tokens 1 (Rule.typeWith tokens function) := by
  intro cursor
  refine .get ?_
  rw [Cursor.next?_eq]
  cases hrest : cursor.rest tokens with
  | nil => exact .fail _
  | cons token others =>
    simp only [List.head?_cons]
    split
    · next htoken =>
      refine .bind (.skip hrest (by simp [beq_iff_eq.mp htoken])) fun _ _ _ ↦ ?_
      split
      · exact .pure _
      · exact .throw _
    split
    · exact hfunction cursor
    · exact .fail _

theorem consumes_parameter {type : Rule Tree} (htype : Consumes tokens 1 type) :
    Consumes tokens 1 (Rule.parameter tokens type) :=
  .bind (expect (by decide)) fun _ ↦ .bind (expect (by decide)).weaken fun _ ↦
    .bind htype.weaken fun _ ↦ .pure _

theorem consumes_functionType {type : Rule Tree} (htype : Consumes tokens 1 type) :
    Consumes tokens 1 (Rule.functionType tokens type) :=
  .bind (consumes_listed (consumes_parameter htype)) fun _ ↦
    .bind (expect (by decide)).weaken fun _ ↦ .bind htype.weaken fun _ ↦ .pure _

theorem consumes_typeRule (levels : Nat) : Consumes tokens 1 (Rule.typeRule tokens levels) := by
  induction levels with
  | zero => exact consumes_typeWith fun _ ↦ .tooDeep
  | succ levels ih => exact consumes_typeWith (consumes_functionType ih)

/-! ### Expressions -/

theorem consumes_typedLiteral {token : Token} {others : List Token}
    (hrest : cursor.rest tokens = token :: others) (hend : token.kind ≠ .endOfStream) :
    ConsumesAt tokens 1 cursor (Rule.typedLiteral token) := by
  refine .get (.bind (.skip hrest hend) fun _ _ _ ↦ ?_)
  split
  · exact .pure _
  · exact .throw _

theorem consumes_chain {operation? : TokenKind → Option ArithOp} {operand : Rule Tree}
    (hend : operation? .endOfStream = none) (hoperand : Consumes tokens least operand)
    (rounds : Nat) :
    ∀ left, Consumes tokens 0 (Rule.chain tokens operation? operand rounds left) := by
  induction rounds with
  | zero => exact fun left ↦ .pure left
  | succ rounds ih =>
    intro left cursor
    refine .get ?_
    rw [Cursor.next?_eq]
    cases hop : (cursor.rest tokens).head?.bind (operation? ·.kind) with
    | none => exact .pure left
    | some op =>
      obtain ⟨operator, others, hrest, hgoes⟩ := Reader.exists_of_operation hend hop
      refine .bind (.weaken (.skip hrest hgoes)) fun _ after _ ↦ ?_
      exact bind hoperand.weaken (fun right ↦ ih _) after

section

variable {level : Level} (hexpression : Consumes tokens 1 level.expression)

include hexpression

theorem consumes_factor : Consumes tokens 1 (Rule.factor tokens level) := by
  intro cursor
  refine .get ?_
  rw [Cursor.next?_eq]
  cases hrest : cursor.rest tokens with
  | nil => exact .fail _
  | cons token others =>
    simp only [List.head?_cons]
    split
    · next hkind =>
      exact .bind (.skip hrest (by simp [beq_iff_eq.mp hkind])) fun _ _ _ ↦ .pure _
    split
    · next hliteral =>
      exact consumes_typedLiteral hrest (TokenKind.ne_endOfStream_of_isLiteral hliteral)
    split
    · next hkind =>
      refine .bind (.skip hrest (by simp [beq_iff_eq.mp hkind])) fun _ after _ ↦ .get ?_
      split
      · exact bind (consumes_listed hexpression).weaken (fun _ ↦ .pure _) after
      · exact .pure _
    split
    · next hkind =>
      refine .bind (.skip hrest (by simp [beq_iff_eq.mp hkind])) fun _ after _ ↦ ?_
      exact bind hexpression.weaken (fun _ ↦ bind (expect (by decide)).weaken fun _ ↦ .pure _) after
    · exact .fail _

theorem consumes_term : Consumes tokens 1 (Rule.term tokens level) := by
  have hfactor : Consumes tokens 1 (Rule.factor tokens level) := consumes_factor hexpression
  refine .andThen (accept (by decide)) fun found ↦ ?_
  split
  · exact .bind hfactor fun _ ↦ consumes_chain rfl hfactor _ _
  · exact .bind hfactor fun _ ↦ consumes_chain rfl hfactor _ _

theorem consumes_additive : Consumes tokens 1 (Rule.additive tokens level) :=
  .bind (consumes_term hexpression) fun _ ↦ consumes_chain rfl (consumes_term hexpression) _ _

theorem consumes_comparison : Consumes tokens 1 (Rule.comparison tokens level) := by
  refine .bind (consumes_additive hexpression) fun left cursor ↦ .get ?_
  rw [Cursor.next?_eq]
  cases hrest : cursor.rest tokens with
  | nil => exact .pure _
  | cons token others =>
    simp only [List.head?_cons]
    split
    · next hcomparison =>
      have hend := TokenKind.ne_endOfStream_of_isComparison hcomparison
      refine .bind (.weaken (.skip hrest hend)) fun _ after _ ↦ ?_
      split
      · exact bind (consumes_additive hexpression).weaken (fun _ ↦ .pure _) after
      · exact .throw _
    · exact .pure _

/-! ### Statements -/

theorem consumes_assignment : Consumes tokens 1 (Rule.assignment tokens level) :=
  .bind (expect (by decide)) fun _ ↦ .bind (expect (by decide)).weaken fun _ ↦
    .bind hexpression.weaken fun _ ↦ .bind (expect (by decide)).weaken fun _ ↦ .pure _

theorem consumes_expressionStatement :
    Consumes tokens 1 (Rule.expressionStatement tokens level) := by
  refine .bind hexpression fun expression ↦ ?_
  split
  · exact .bind (accept (by decide)) fun _ ↦ .pure _
  · exact .bind (expect (by decide)).weaken fun _ ↦ .pure _

/-- The expression that ends a block is read like any other. -/
theorem consumes_trailing (error : SyntaxError) :
    Consumes tokens 1 (Rule.trailing tokens level error) := by
  intro cursor hcursor
  unfold Rule.trailing
  cases hrun : level.expression cursor with
  | ok tree after =>
    have hafter := (hexpression cursor).of_ok hcursor hrun
    by_cases hcurly : after.nextIs tokens .rightCurly = true
    · simp only [if_pos hcurly]
      exact hafter
    · simp only [if_neg hcurly]
      exact ⟨hafter.1, by omega⟩
  | error failure after =>
    have hafter := (hexpression cursor).of_error hcursor hrun
    cases failure with
    | syntaxError found =>
      by_cases hfurther : error.position < found.position
      · simp only [if_pos hfurther]
        exact hafter
      · simp only [if_neg hfurther]
        exact hafter
    | _ => exact hafter

variable (htype : Consumes tokens 1 level.type)

include htype

/-- The keyword may be one that was taken before, at the end of the stream; the name is not. -/
theorem consumes_declaration : Consumes tokens 1 (Rule.declaration tokens level) := by
  refine .andThen advance fun token? ↦ ?_
  split
  · exact .throw _
  split
  · exact .throw _
  refine .bind (expect (by decide)) fun _ ↦ .bind (expect (by decide)).weaken fun _ ↦ ?_
  refine .bind htype.weaken fun _ ↦ .bind (expect (by decide)).weaken fun _ ↦ ?_
  exact .bind hexpression.weaken fun _ ↦ .bind (expect (by decide)).weaken fun _ ↦ .pure _

theorem consumes_statement : Consumes tokens 1 (Rule.statement tokens level) := by
  intro cursor
  refine .get ?_
  split
  · exact consumes_declaration hexpression htype cursor
  split
  · exact consumes_assignment hexpression cursor
  · exact consumes_expressionStatement hexpression cursor

/-! ### Blocks and conditionals -/

omit hexpression htype in
theorem consumes_blockResult? (element : Tree) :
    Consumes tokens 0 (Rule.blockResult? tokens element) := by
  intro cursor
  unfold Rule.blockResult?
  split
  · refine .get ?_
    split
    · split
      · exact .pure _
      · exact .throw _
    · exact .pure none
  · exact .pure none

theorem consumes_blockElements (rounds : Nat) :
    Consumes tokens 0 (Rule.blockElements tokens level rounds) := by
  induction rounds with
  | zero => exact .pure _
  | succ rounds ih =>
    intro cursor
    refine .get ?_
    split
    · exact .pure _
    · refine bind (speculate (consumes_statement hexpression htype)) (fun attempt ↦ ?_) cursor
      split
      · exact .bind (consumes_trailing hexpression _).weaken fun _ ↦ .pure _
      · refine .bind (consumes_blockResult? _) fun result? ↦ ?_
        split
        · exact .pure _
        · exact .bind ih fun _ ↦ .pure _

theorem consumes_block : Consumes tokens 1 (Rule.block tokens level) :=
  .bind (expect (by decide)) fun _ ↦ .bind (consumes_blockElements hexpression htype _) fun _ ↦
    .bind (expect (by decide)).weaken fun _ ↦ .pure _

theorem consumes_elseBranches (rounds : Nat) :
    Consumes tokens 0 (Rule.elseBranches tokens level rounds) := by
  induction rounds with
  | zero => exact .pure []
  | succ rounds ih =>
    intro cursor
    refine .get ?_
    rw [Cursor.nextIsKeyword_eq, Cursor.secondIsKeyword_eq]
    split
    · next hwords =>
      obtain ⟨first, second, others, hrest, hfirst, hsecond⟩ := Reader.exists_of_keywords hwords
      refine .bind (.weaken (.skip hrest hfirst)) fun _ middle hmiddle ↦ ?_
      have hmore := Cursor.rest_of_skip hrest hmiddle
      refine .bind (.weaken (.skip hmore hsecond)) fun _ after _ ↦ ?_
      refine bind hexpression.weaken (fun _ ↦ ?_) after
      exact .bind (consumes_block hexpression htype).weaken fun _ ↦ .bind ih fun _ ↦ .pure _
    · exact .pure []

theorem consumes_elseBlock : Consumes tokens 0 (Rule.elseBlock tokens level) := by
  intro cursor
  refine .get ?_
  rw [Cursor.nextIsKeyword_eq]
  split
  · next hword =>
    obtain ⟨word, others, hrest, hword⟩ := Reader.exists_of_nextIsKeyword hword
    refine .bind (.weaken (.skip hrest (Token.kind_ne_endOfStream_of_isKeyword hword))) ?_
    exact fun _ after _ ↦ (consumes_block hexpression htype after).weaken
  · exact .pure _

theorem consumes_conditional : Consumes tokens 1 (Rule.conditional tokens level) := by
  refine .bind (expectKeyword "if") fun _ ↦ .bind hexpression.weaken fun _ ↦ ?_
  refine .bind (consumes_block hexpression htype).weaken fun _ ↦ ?_
  refine .bind (consumes_elseBranches hexpression htype _) fun _ ↦ ?_
  exact .bind (consumes_elseBlock hexpression htype) fun _ ↦ .pure _

/-! ### The knot -/

theorem consumes_expressionWith : Consumes tokens 1 (Rule.expressionWith tokens level) := by
  intro cursor
  refine .get ?_
  split
  · exact consumes_block hexpression htype cursor
  split
  · exact consumes_conditional hexpression htype cursor
  · exact consumes_comparison hexpression cursor

theorem consumes_statements (rounds : Nat) :
    Consumes tokens 0 (Rule.statements tokens level rounds) := by
  induction rounds with
  | zero => exact .pure []
  | succ rounds ih =>
    intro cursor
    refine .get ?_
    split
    · exact .pure []
    · have hfirst := (consumes_statement hexpression htype).weaken
      exact bind hfirst (fun _ ↦ bind ih fun _ ↦ .pure _) cursor

end

theorem consumes_expression (levels : Nat) : Consumes tokens 1 (Rule.expression tokens levels) := by
  induction levels with
  | zero => exact .remembered fun _ ↦ .tooDeep
  | succ levels ih => exact .remembered (consumes_expressionWith ih (consumes_typeRule levels))

/-- Every rule moves on, and all but that of programs take a token. -/
theorem consumes_rule (levels : Nat) (name : RuleName) :
    Consumes tokens name.least (name.rule tokens levels) := by
  have hexpression : Consumes tokens 1 (Rule.level tokens levels).expression :=
    consumes_expression levels
  have htype : Consumes tokens 1 (Rule.level tokens levels).type := consumes_typeRule levels
  cases name with
  | program =>
    refine .bind ?_ fun _ ↦ .pure _
    exact .bind (consumes_statements hexpression htype _) fun _ ↦ .bind (.record _) fun _ ↦ .pure _
  | statement => exact .bind (consumes_statement hexpression htype) fun _ ↦ .pure _
  | declaration => exact .bind (consumes_declaration hexpression htype) fun _ ↦ .pure _
  | assignment => exact .bind (consumes_assignment hexpression) fun _ ↦ .pure _
  | type => exact .bind htype fun _ ↦ .pure _
  | parameter => exact .bind (consumes_parameter htype) fun _ ↦ .pure _
  | parameterList => exact .bind (consumes_listed (consumes_parameter htype)) fun _ ↦ .pure _
  | expression => exact .bind hexpression fun _ ↦ .pure _
  | additive => exact .bind (consumes_additive hexpression) fun _ ↦ .pure _
  | term => exact .bind (consumes_term hexpression) fun _ ↦ .pure _
  | factor => exact .bind (consumes_factor hexpression) fun _ ↦ .pure _
  | arguments => exact .bind (consumes_listed hexpression) fun _ ↦ .pure _
  | block => exact .bind (consumes_block hexpression htype) fun _ ↦ .pure _
  | conditional => exact .bind (consumes_conditional hexpression htype) fun _ ↦ .pure _

/-! ### Loops end by themselves -/

/-- A loop whose rounds each take a token, and which stops where no token is left, does the same for
every number of rounds that is not below the number of tokens left. -/
theorem rounds_irrelevant (loop : Nat → Rule α) (last : α)
    (hstop : ∀ rounds cursor, cursor.rest tokens = [] → loop rounds cursor = .ok last cursor)
    (hround : ∀ rounds rounds' cursor, cursor.Trusted tokens (Spans tokens) →
      (∀ later, later.Trusted tokens (Spans tokens) → cursor.index < later.index →
        loop rounds later = loop rounds' later) →
      loop (rounds + 1) cursor = loop (rounds' + 1) cursor)
    {rounds : Nat} (hrounds : tokens.size ≤ rounds)
    (hcursor : cursor.Trusted tokens (Spans tokens)) :
    loop rounds cursor = loop tokens.size cursor := by
  have hempty : ∀ cursor : Cursor, tokens.size ≤ cursor.index → cursor.rest tokens = [] := by
    intro cursor hle
    rw [← List.length_eq_zero_iff, Cursor.length_rest]
    omega
  have hall : ∀ (rounds rounds' : Nat) (cursor : Cursor), cursor.Trusted tokens (Spans tokens) →
      tokens.size ≤ rounds + cursor.index → tokens.size ≤ rounds' + cursor.index →
        loop rounds cursor = loop rounds' cursor := by
    intro rounds
    induction rounds with
    | zero =>
      intro rounds' cursor _ hrounds _
      have hrest := hempty cursor (by omega)
      rw [hstop 0 cursor hrest, hstop rounds' cursor hrest]
    | succ rounds ih =>
      intro rounds' cursor hcursor hrounds hrounds'
      cases rounds' with
      | zero =>
        have hrest := hempty cursor (by omega)
        rw [hstop (rounds + 1) cursor hrest, hstop 0 cursor hrest]
      | succ rounds' =>
        exact hround rounds rounds' cursor hcursor
          fun later hlater hlt ↦ ih rounds' later hlater (by omega) (by omega)
  exact hall rounds tokens.size cursor hcursor (by omega) (by omega)

theorem rounds_irrelevant_afterCommas {item : Rule α} (hitem : Consumes tokens 1 item)
    {rounds : Nat} (hrounds : tokens.size ≤ rounds)
    (hcursor : cursor.Trusted tokens (Spans tokens)) :
    Rule.afterCommas tokens item rounds cursor =
      Rule.afterCommas tokens item tokens.size cursor := by
  refine rounds_irrelevant (Rule.afterCommas tokens item) [] ?_ ?_ hrounds hcursor
  · intro rounds cursor hrest
    cases rounds with
    | zero => rfl
    | succ rounds =>
      rw [Rule.afterCommas, Run.bind_of_ok (Rule.accept_of_not (by rw [hrest]; rfl))]
      rfl
  · intro rounds rounds' cursor hcursor hlater
    refine Run.bind_congr_next fun found middle hfound ↦ ?_
    obtain ⟨hmiddle, hle, -⟩ := (accept (by decide) cursor).of_ok hcursor hfound
    cases found with
    | false => rfl
    | true =>
      refine Run.bind_congr_next fun first after hfirst ↦ ?_
      obtain ⟨hafter, hlt, -⟩ := (hitem middle).of_ok hmiddle hfirst
      exact Run.bind_congr (hlater after hafter (by omega))

theorem Rule.eq_ok_of_speculate {rule : Rule α} {value : α} {after : Cursor}
    (hattempt : speculate rule cursor = .ok (.ok value) after) : rule cursor = .ok value after := by
  unfold speculate at hattempt
  split at hattempt
  · next hrun =>
    cases hattempt
    exact hrun
  · cases hattempt
  · cases hattempt

section

variable {level : Level} (hexpression : Consumes tokens 1 level.expression)
  (htype : Consumes tokens 1 level.type) {rounds : Nat} (hrounds : tokens.size ≤ rounds)
  (hcursor : cursor.Trusted tokens (Spans tokens))

include hexpression htype hrounds hcursor

theorem rounds_irrelevant_statements : Rule.statements tokens level rounds cursor =
    Rule.statements tokens level tokens.size cursor := by
  refine rounds_irrelevant (Rule.statements tokens level) [] ?_ ?_ hrounds hcursor
  · intro rounds cursor hrest
    cases rounds with
    | zero => rfl
    | succ rounds =>
      rw [Rule.statements, Run.get_bind, Cursor.atEnd_eq, hrest]
      rfl
  · intro rounds rounds' cursor hcursor hlater
    rw [Rule.statements, Rule.statements, Run.get_bind, Run.get_bind]
    split
    · rfl
    · refine Run.bind_congr_next fun first after hfirst ↦ ?_
      obtain ⟨hafter, hlt, -⟩ := (consumes_statement hexpression htype cursor).of_ok hcursor hfirst
      exact Run.bind_congr (hlater after hafter hlt)

theorem rounds_irrelevant_blockElements : Rule.blockElements tokens level rounds cursor =
    Rule.blockElements tokens level tokens.size cursor := by
  refine rounds_irrelevant (Rule.blockElements tokens level) ([], .absent) ?_ ?_ hrounds hcursor
  · intro rounds cursor hrest
    cases rounds with
    | zero => rfl
    | succ rounds =>
      rw [Rule.blockElements, Run.get_bind, Cursor.atEnd_eq, hrest, if_pos (by simp [Reader.atEnd])]
      rfl
  · intro rounds rounds' cursor hcursor hlater
    rw [Rule.blockElements, Rule.blockElements, Run.get_bind, Run.get_bind]
    split
    · rfl
    · refine Run.bind_congr_next fun attempt middle hattempt ↦ ?_
      cases attempt with
      -- A failed attempt takes nothing, but then the expression that ends the block comes last.
      | error error => rfl
      | ok element =>
        obtain ⟨hmiddle, hlt, -⟩ := (consumes_statement hexpression htype cursor).of_ok hcursor
          (Rule.eq_ok_of_speculate hattempt)
        refine Run.bind_congr_next fun result? after hafter ↦ ?_
        obtain ⟨htrusted, hle, -⟩ := (consumes_blockResult? element middle).of_ok hmiddle hafter
        cases result? with
        | some result => rfl
        | none => exact Run.bind_congr (hlater after htrusted (by omega))

end

end

end LetLang
