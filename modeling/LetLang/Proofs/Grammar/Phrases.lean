import LetLang.Proofs.Grammar.Soundness

/-!
# Phrases and what is behind them

Tokens that derive a tree are read as exactly that tree when it has no more levels than a reader may
open, and otherwise the reader stops, at one of these tokens, because they nest too deep. `Meets`
says both at once of one reader on one list of tokens with something behind it; it composes like the
derivation does, the levels of the whole being the greatest of the levels of the parts. Lists and
types are done here, expressions and statements in the next module.

Where a phrase ends depends on what is behind it. Each operator grips the phrase before it with the
strength of its tier (`TokenKind.grip`), and a phrase of a tier ends where nothing grips it that
hard (`Loose`). After a conditional there must be no `else` (`Ends`), and after a statement without
a semicolon there is none, since no statement starts with one (`Starts`).
-/

set_option autoImplicit false

namespace LetLang

/-! ### Reading one phrase -/

/-- A reader that may open `levels` levels, on tokens that take `need` of them: with enough levels it
comes to the outcome, and otherwise it stops before one of the tokens because they nest too deep. -/
structure Meets {α : Type} (levels need : Nat) (tokens rest : List Token) (reader : Reader α)
    (outcome : EStateM.Result Obstacle (List Token) α) : Prop where
  within : need ≤ levels → reader (tokens ++ rest) = outcome
  beyond : levels < need → ∃ front back, tokens = front ++ back ∧ back ≠ [] ∧
    reader (tokens ++ rest) = .error (.misfit (.nesting nestingLimit)) (back ++ rest)

namespace Meets

variable {α β : Type} {levels need more : Nat} {tokens others rest : List Token}

theorem of_eq {reader : Reader α} {outcome : EStateM.Result Obstacle (List Token) α}
    (hrun : reader (tokens ++ rest) = outcome) : Meets levels 0 tokens rest reader outcome :=
  ⟨fun _ ↦ hrun, fun hlt ↦ absurd hlt (Nat.not_lt_zero levels)⟩

theorem cast {reader : Reader α} {outcome : EStateM.Result Obstacle (List Token) α}
    (hmeets : Meets levels need tokens rest reader outcome) (htokens : tokens = others)
    (hneed : need = more) : Meets levels more others rest reader outcome := by
  subst htokens hneed
  exact hmeets

theorem congr {reader reader' : Reader α} {outcome : EStateM.Result Obstacle (List Token) α}
    (hmeets : Meets levels need tokens rest reader' outcome)
    (hrun : reader (tokens ++ rest) = reader' (tokens ++ rest)) :
    Meets levels need tokens rest reader outcome := by
  refine ⟨fun hle ↦ hrun.trans (hmeets.within hle), fun hlt ↦ ?_⟩
  obtain ⟨front, back, htokens, hback, hstop⟩ := hmeets.beyond hlt
  exact ⟨front, back, htokens, hback, hrun.trans hstop⟩

/-- One phrase after another, where the first leads to the reader of the second. -/
theorem trans {first second : Reader α} {outcome : EStateM.Result Obstacle (List Token) α}
    (hfirst : Meets levels need tokens (others ++ rest) first (second (others ++ rest)))
    (hsecond : Meets levels more others rest second outcome) :
    Meets levels (max need more) (tokens ++ others) rest first outcome := by
  constructor
  · intro hle
    rw [List.append_assoc, hfirst.within (Nat.le_trans (Nat.le_max_left ..) hle)]
    exact hsecond.within (Nat.le_trans (Nat.le_max_right ..) hle)
  · intro hlt
    rw [List.append_assoc]
    by_cases hneed : need ≤ levels
    · obtain ⟨front, back, rfl, hback, hstop⟩ := hsecond.beyond (by omega)
      refine ⟨tokens ++ front, back, by rw [List.append_assoc], hback, ?_⟩
      rw [hfirst.within hneed, hstop]
    · obtain ⟨front, back, rfl, hback, hstop⟩ := hfirst.beyond (by omega)
      refine ⟨front, back ++ others, by rw [List.append_assoc], by simp [hback], ?_⟩
      rw [hstop, List.append_assoc]

/-- What a reader yields is handed on. -/
theorem bindOk {first : Reader α} {next : α → Reader β} {value : α}
    (hfirst : Meets levels need tokens rest first (.ok value rest)) :
    Meets levels need tokens rest (first >>= next) (next value rest) := by
  refine ⟨fun hle ↦ Run.bind_of_ok (hfirst.within hle), fun hlt ↦ ?_⟩
  obtain ⟨front, back, htokens, hback, hstop⟩ := hfirst.beyond hlt
  exact ⟨front, back, htokens, hback, Run.bind_of_error hstop⟩

theorem bind {first : Reader α} {next : α → Reader β} {value : α}
    {outcome : EStateM.Result Obstacle (List Token) β}
    (hfirst : Meets levels need tokens (others ++ rest) first (.ok value (others ++ rest)))
    (hnext : Meets levels more others rest (next value) outcome) :
    Meets levels (max need more) (tokens ++ others) rest (first >>= next) outcome :=
  hfirst.bindOk.trans hnext

/-- What is behind a phrase takes no levels. -/
theorem bindEq {first : Reader α} {next : α → Reader β} {value : α}
    {outcome : EStateM.Result Obstacle (List Token) β}
    (hfirst : Meets levels need tokens (others ++ rest) first (.ok value (others ++ rest)))
    (hnext : next value (others ++ rest) = outcome) :
    Meets levels need (tokens ++ others) rest (first >>= next) outcome :=
  (hfirst.bind (of_eq hnext)).cast rfl (Nat.max_zero need)

theorem finish {reader : Reader α} {outcome outcome' : EStateM.Result Obstacle (List Token) α}
    (hmeets : Meets levels need tokens rest reader outcome) (houtcome : outcome = outcome') :
    Meets levels need tokens rest reader outcome' := by
  subst houtcome
  exact hmeets

/-- One more level to open, and one more taken. -/
theorem succ {reader : Reader α} {outcome : EStateM.Result Obstacle (List Token) α}
    (hmeets : Meets levels need tokens rest reader outcome) :
    Meets (levels + 1) (need + 1) tokens rest reader outcome :=
  ⟨fun hle ↦ hmeets.within (Nat.le_of_succ_le_succ hle),
    fun hlt ↦ hmeets.beyond (Nat.lt_of_succ_lt_succ hlt)⟩

/-- No level is left, and one is taken by the first of the tokens. -/
theorem tooDeep {outcome : EStateM.Result Obstacle (List Token) α} (htokens : tokens ≠ []) :
    Meets 0 (need + 1) tokens rest Reader.tooDeep outcome :=
  ⟨fun hle ↦ absurd hle (Nat.not_succ_le_zero need), fun _ ↦ ⟨[], tokens, rfl, htokens, rfl⟩⟩

/-- One token before a phrase. -/
theorem push {token : Token} {reader next : Reader α}
    {outcome : EStateM.Result Obstacle (List Token) α}
    (hstep : reader (token :: (tokens ++ rest)) = next (tokens ++ rest))
    (hnext : Meets levels need tokens rest next outcome) :
    Meets levels need (token :: tokens) rest reader outcome := by
  refine ⟨fun hle ↦ hstep.trans (hnext.within hle), fun hlt ↦ ?_⟩
  obtain ⟨front, back, rfl, hback, hstop⟩ := hnext.beyond hlt
  exact ⟨token :: front, back, rfl, hback, hstep.trans hstop⟩

end Meets

/-! ### Where a phrase ends -/

/-- How hard a token holds on to the phrase before it: a parenthesis makes a name a call and `=` makes
it the start of an assignment, then come products, sums and comparisons. -/
def TokenKind.grip : TokenKind → Nat
  | leftParen | assignment => 4
  | asterisk | slash => 3
  | plus | minus => 2
  | equal | notEqual | lessThan | greaterThan | lessEqual | greaterEqual => 1
  | _ => 0

/-- What follows holds on less hard than the given tier. -/
def Loose (tier : Nat) (rest : List Token) : Prop :=
  ∀ token, rest.head? = some token → token.kind.grip < tier

theorem Loose.mono {first second : Nat} {rest : List Token} (hloose : Loose first rest)
    (hle : first ≤ second) : Loose second rest :=
  fun token htoken ↦ Nat.lt_of_lt_of_le (hloose token htoken) hle

theorem loose_cons {tier : Nat} {token : Token} {rest : List Token}
    (htoken : token.kind.grip < tier) : Loose tier (token :: rest) := by
  intro other hother
  cases hother
  exact htoken

theorem Loose.nextIs {tier : Nat} {rest : List Token} (hloose : Loose tier rest) {kind : TokenKind}
    (hkind : tier ≤ kind.grip) : Reader.nextIs kind rest = false := by
  cases rest with
  | nil => rfl
  | cons token others =>
    have hgrip := hloose token rfl
    rw [Reader.nextIs_cons, beq_eq_false_iff_ne]
    rintro rfl
    omega

theorem TokenKind.grip_of_multiplicativeOp? {kind : TokenKind} {op : ArithOp}
    (hop : multiplicativeOp? kind = some op) : kind.grip = 3 := by
  cases kind <;> simp_all [multiplicativeOp?, grip]

theorem TokenKind.grip_of_additiveOp? {kind : TokenKind} {op : ArithOp}
    (hop : additiveOp? kind = some op) : kind.grip = 2 := by
  cases kind <;> simp_all [additiveOp?, grip]

theorem TokenKind.grip_of_compareOp? {kind : TokenKind} {op : CompareOp}
    (hop : CompareOp.ofKind? kind = some op) : kind.grip = 1 := by
  cases kind <;> simp_all [CompareOp.ofKind?, grip]

/-- No operator of a tier follows what ends there. -/
theorem Loose.no_operator {tier : Nat} {rest : List Token} (hloose : Loose tier rest) {α : Type}
    {operation? : TokenKind → Option α}
    (hgrip : ∀ {kind op}, operation? kind = some op → tier ≤ kind.grip) :
    rest.head?.bind (operation? ·.kind) = none := by
  rw [Option.bind_eq_none_iff]
  intro token htoken
  cases hop : operation? token.kind with
  | none => rfl
  | some op =>
    have hgrips := hgrip hop
    have hless := hloose token htoken
    omega

/-- The expression ends where the rest begins. -/
structure Ends (tree : Tree) (rest : List Token) : Prop where
  noElse : Reader.nextIsKeyword "else" rest = false
  loose : tree.isBraced = false → Loose 1 rest

/-- Every expression ends before a token that is neither an operator nor a keyword. -/
theorem ends_cons {token : Token} (tree : Tree) (rest : List Token) (hgrip : token.kind.grip = 0)
    (hkind : token.kind ≠ .keyword) : Ends tree (token :: rest) := by
  refine ⟨?_, fun _ ↦ loose_cons (by omega)⟩
  simp [Token.isKeyword, hkind]

/-! ### Where a phrase starts -/

/-- A statement may start here: neither closing punctuation nor a semicolon, nor an `else`, nor the end
of the input is next. -/
structure Starts (input : List Token) : Prop where
  notParen : Reader.nextIs .rightParen input = false
  notCurly : Reader.nextIs .rightCurly input = false
  notSemicolon : Reader.nextIs .semicolon input = false
  notElse : Reader.nextIsKeyword "else" input = false
  notEnd : Reader.atEnd input = false

/-- An expression may start here: it is no declaration and no assignment that starts. -/
structure Opens (input : List Token) : Prop where
  starts : Starts input
  noDeclaration : Reader.declKeyword? input = none
  noAssignment : Reader.startsAssignment input = false

/-- The kinds of token that a term starts with. -/
def TokenKind.opensTerm : TokenKind → Bool
  | numberLiteral | integerLiteral | floatLiteral | identifier | leftParen | minus => true
  | _ => false

/-- The kinds of token that a factor starts with. -/
def TokenKind.opensFactor (kind : TokenKind) : Bool := kind.opensTerm && kind != .minus

theorem opens_of_opensTerm {token : Token} {others : List Token}
    (htoken : token.kind.opensTerm = true)
    (hassignment : Reader.startsAssignment (token :: others) = false) : Opens (token :: others) := by
  refine ⟨⟨?_, ?_, ?_, ?_, ?_⟩, ?_, hassignment⟩
  all_goals
    cases hkind : token.kind <;> simp_all [TokenKind.opensTerm, Token.isKeyword, Reader.atEnd,
      Reader.declKeyword?]

theorem IsFactor.head {tree : Tree} {tokens : List Token} (h : IsFactor tree tokens) :
    ∃ token others, tokens = token :: others ∧ token.kind.opensFactor = true ∧
      ∀ rest, Loose 4 rest → Reader.startsAssignment (tokens ++ rest) = false := by
  cases h with
  | literal hkind => exact ⟨_, _, rfl, by rw [hkind]; rfl, by simp [Reader.startsAssignment, hkind]⟩
  | number hkind hnumber =>
    rcases hkind with hkind | hkind
    · exact ⟨_, _, rfl, by rw [hkind]; rfl, by simp [Reader.startsAssignment, hkind]⟩
    · exact ⟨_, _, rfl, by rw [hkind]; rfl, by simp [Reader.startsAssignment, hkind]⟩
  | identifier hkind =>
    refine ⟨_, _, rfl, by rw [hkind]; rfl, fun rest hloose ↦ ?_⟩
    have hequals : Reader.nextIs .assignment rest = false := hloose.nextIs (Nat.le_refl 4)
    cases rest with
    | nil => simp [Reader.startsAssignment, Reader.secondIs]
    | cons token others => simpa [Reader.startsAssignment, Reader.secondIs, hkind] using hequals
  | emptyCall hname hleft hright =>
    exact ⟨_, _, rfl, by rw [hname]; rfl, by simp [Reader.startsAssignment, Reader.secondIs, hleft]⟩
  | call hname hleft harguments hright =>
    exact ⟨_, _, rfl, by rw [hname]; rfl, by simp [Reader.startsAssignment, Reader.secondIs, hleft]⟩
  | parenthesized hleft hinner hright =>
    exact ⟨_, _, rfl, by rw [hleft]; rfl, by simp [Reader.startsAssignment, hleft]⟩

theorem IsTerm.head {tree : Tree} {tokens : List Token} (h : IsTerm tree tokens) :
    ∃ token others, tokens = token :: others ∧ token.kind.opensTerm = true ∧
      ∀ rest, Loose 4 rest → Reader.startsAssignment (tokens ++ rest) = false := by
  induction h using IsTerm.induct with
  | factor hfactor =>
    obtain ⟨token, others, htokens, hopens, hassignment⟩ := hfactor.head
    exact ⟨token, others, htokens, (Bool.and_eq_true_iff.mp hopens).1, hassignment⟩
  | negation hsign hfactor =>
    exact ⟨_, _, rfl, by rw [hsign]; rfl, by simp [Reader.startsAssignment, hsign]⟩
  | step hleft hoperator hright ih =>
    obtain ⟨token, others, htokens, hopens, hassignment⟩ := ih
    refine ⟨token, _, by rw [htokens, List.cons_append], hopens, fun rest _ ↦ ?_⟩
    rw [List.append_assoc, List.cons_append]
    exact hassignment _ (loose_cons (by rw [TokenKind.grip_of_multiplicativeOp? hoperator]; decide))

theorem IsAdditive.head {tree : Tree} {tokens : List Token} (h : IsAdditive tree tokens) :
    ∃ token others, tokens = token :: others ∧ token.kind.opensTerm = true ∧
      ∀ rest, Loose 4 rest → Reader.startsAssignment (tokens ++ rest) = false := by
  induction h using IsAdditive.induct with
  | term hterm => exact hterm.head
  | step hleft hoperator hright ih =>
    obtain ⟨token, others, htokens, hopens, hassignment⟩ := ih
    refine ⟨token, _, by rw [htokens, List.cons_append], hopens, fun rest _ ↦ ?_⟩
    rw [List.append_assoc, List.cons_append]
    exact hassignment _ (loose_cons (by rw [TokenKind.grip_of_additiveOp? hoperator]; decide))

theorem IsBlock.head {tree : Tree} {tokens : List Token} (h : IsBlock tree tokens) :
    ∃ left others, tokens = left :: others ∧ left.kind = .leftCurly := by
  cases h with
  | empty hleft => exact ⟨_, _, rfl, hleft⟩
  | ended hleft => exact ⟨_, _, rfl, hleft⟩
  | result hleft => exact ⟨_, _, rfl, hleft⟩

theorem opens_of_leftCurly {token : Token} {others : List Token} (htoken : token.kind = .leftCurly) :
    Opens (token :: others) := by
  refine ⟨⟨?_, ?_, ?_, ?_, ?_⟩, ?_, ?_⟩
  all_goals
    simp [htoken, Token.isKeyword, Reader.atEnd, Reader.declKeyword?, Reader.startsAssignment]

theorem opens_of_if {token : Token} {others : List Token} (htoken : token.isKeyword "if" = true) :
    Opens (token :: others) := by
  simp only [Token.isKeyword, Bool.and_eq_true, beq_iff_eq] at htoken
  refine ⟨⟨?_, ?_, ?_, ?_, ?_⟩, ?_, ?_⟩
  all_goals
    simp [htoken, Token.isKeyword, Reader.atEnd, Reader.declKeyword?, Reader.startsAssignment]

theorem IsExpression.opens {tree : Tree} {tokens rest : List Token} (h : IsExpression tree tokens)
    (hends : Ends tree rest) : Opens (tokens ++ rest) := by
  cases h with
  | block hblock =>
    obtain ⟨left, others, rfl, hleft⟩ := hblock.head
    exact opens_of_leftCurly hleft
  | conditional hconditional =>
    cases hconditional with
    | branching hword => exact opens_of_if hword
  | additive hadditive =>
    have hbraced := Tree.isBraced_of_isAdditive hadditive.tiered.1
    obtain ⟨token, others, rfl, hopens, hassignment⟩ := hadditive.head
    exact opens_of_opensTerm hopens (hassignment rest ((hends.loose hbraced).mono (by decide)))
  | comparison hleft hoperator hright =>
    obtain ⟨token, others, rfl, hopens, hassignment⟩ := hleft.head
    rw [List.append_assoc, List.cons_append]
    refine opens_of_opensTerm hopens (hassignment _ (loose_cons ?_))
    rw [TokenKind.grip_of_compareOp? hoperator]
    decide

theorem IsEnded.starts {tree : Tree} {tokens : List Token} (h : IsEnded tree tokens)
    (rest : List Token) : Starts (tokens ++ rest) := by
  cases h with
  | @declaration word _ _ _ _ keyword _ _ _ _ hword =>
    simp only [Token.isKeyword, Bool.and_eq_true, beq_iff_eq] at hword
    obtain ⟨hkind, hlexeme⟩ := hword
    have helse : word.isKeyword "else" = false := by
      cases keyword <;> simp [Token.isKeyword, hlexeme, DeclKeyword.text]
    exact ⟨by simp [hkind], by simp [hkind], by simp [hkind], by simp [helse],
      by simp [Reader.atEnd, hkind]⟩
  | assignment hname =>
    exact ⟨by simp [hname], by simp [hname], by simp [hname], by simp [Token.isKeyword, hname],
      by simp [Reader.atEnd, hname]⟩
  | expression hexpression hsemicolon =>
    rw [List.append_assoc]
    exact (hexpression.opens (ends_cons _ rest (by rw [hsemicolon]; rfl) (by simp [hsemicolon]))).starts

/-- Behind a statement without a semicolon there may be the end of the input or another element. -/
structure Ready (rest : List Token) : Prop where
  noElse : Reader.nextIsKeyword "else" rest = false
  noSemicolon : Reader.nextIs .semicolon rest = false

theorem Starts.ready {rest : List Token} (hstarts : Starts rest) : Ready rest :=
  ⟨hstarts.notElse, hstarts.notSemicolon⟩

theorem Ready.ends {tree : Tree} {rest : List Token} (hready : Ready rest)
    (hbraced : tree.isBraced = true) : Ends tree rest :=
  ⟨hready.noElse, fun hnot ↦ by rw [hbraced] at hnot; cases hnot⟩

theorem IsStatement.starts {tree : Tree} {tokens rest : List Token} (h : IsStatement tree tokens)
    (hready : Ready rest) : Starts (tokens ++ rest) := by
  cases h with
  | ended hended => exact hended.starts rest
  | braced hbraced hexpression => exact (hexpression.opens (hready.ends hbraced)).starts

theorem AreStatements.starts {trees : List Tree} {tokens rest : List Token}
    (h : AreStatements trees tokens) (hrest : Starts rest) : Starts (tokens ++ rest) := by
  induction h using AreStatements.induct with
  | nil => exact hrest
  | cons hstatement hstatements ih =>
    rw [List.append_assoc]
    exact hstatement.starts ih.ready

/-! ### Lists -/

/-- A reader of one item of a list: it reads what derives an item, up to a comma or the closing
parenthesis. -/
structure MeetsItem {α : Type} (rounds levels : Nat) (item : Reader α)
    (derives : α → List Token → Prop) (need : α → Nat) : Prop where
  starts : ∀ {value : α} {tokens : List Token} {token : Token} (rest : List Token),
    derives value tokens → token.kind = .comma ∨ token.kind = .rightParen →
      Reader.nextIs .rightParen (tokens ++ token :: rest) = false
  meets : ∀ {value : α} {tokens : List Token} {token : Token} {rest : List Token},
    derives value tokens → token.kind = .comma ∨ token.kind = .rightParen →
      (tokens ++ token :: rest).length ≤ rounds →
        Meets levels (need value) tokens (token :: rest) item (.ok value (token :: rest))

section

variable {α : Type} {rounds levels : Nat} {item : Reader α} {derives : α → List Token → Prop}
  {need : α → Nat} (needs : List α → Nat) {values : List α} {tokens rest : List Token}

theorem afterCommas_of_not {input : List Token} (hnext : Reader.nextIs .comma input = false)
    (fuel : Nat) : Reader.afterCommas item fuel input = .ok [] input := by
  cases fuel with
  | zero => rfl
  | succ fuel =>
    rw [Reader.afterCommas, Run.bind_of_ok (Reader.accept_of_not hnext)]
    rfl

/-- A comma and then items: the next item, and what the commas after it bring. -/
theorem afterCommas_comma {comma : Token} {input : List Token} (hcomma : comma.kind = .comma)
    (fuel : Nat) : Reader.afterCommas item (fuel + 1) (comma :: input) = (do
      let first ← item
      let rest ← Reader.afterCommas item fuel
      return first :: rest) input := by
  rw [Reader.afterCommas, Run.bind_of_ok (Reader.accept_cons hcomma)]
  rfl

variable (hitem : MeetsItem rounds levels item derives need)
  (hneeds : ∀ value values, needs (value :: values) = max (need value) (needs values))
  (hnil : needs [] = 0)

include hitem hneeds hnil

theorem meets_afterCommas {right : Token} (hright : right.kind = .rightParen)
    (h : Separated derives values tokens) : ∀ {comma : Token} {fuel : Nat}, comma.kind = .comma →
      (tokens ++ right :: rest).length ≤ rounds → tokens.length < fuel →
        Meets levels (needs values) (comma :: tokens) (right :: rest)
          (Reader.afterCommas item fuel) (.ok values (right :: rest)) := by
  have hstop : Reader.nextIs .comma (right :: rest) = false := by simp [hright]
  induction h with
  | @one value tokens hvalue =>
    intro comma fuel hcomma hroom hfuel
    obtain ⟨fuel, rfl⟩ : ∃ less, fuel = less + 1 := ⟨fuel - 1, by omega⟩
    refine Meets.push (afterCommas_comma hcomma fuel) ?_
    have hfirst := (hitem.meets hvalue (.inr hright) hroom).cast rfl
      (by rw [hneeds, hnil, Nat.max_zero] : need value = needs [value])
    refine hfirst.bindOk.finish ?_
    rw [Run.bind_of_ok (afterCommas_of_not hstop fuel)]
    rfl
  | @more value values tokens others second hvalue hsecond _ ih =>
    intro comma fuel hcomma hroom hfuel
    rw [List.append_assoc, List.cons_append] at hroom
    rw [List.length_append, List.length_cons] at hfuel
    obtain ⟨fuel, rfl⟩ : ∃ less, fuel = less + 1 := ⟨fuel - 1, by omega⟩
    have hroom' : (others ++ right :: rest).length ≤ rounds := by
      rw [List.length_append, List.length_cons] at hroom
      omega
    rw [hneeds]
    refine Meets.push (afterCommas_comma hcomma fuel) ?_
    refine Meets.bind (hitem.meets hvalue (.inl hsecond) hroom) ?_
    exact (ih hsecond hroom' (by omega)).bindOk

theorem meets_listed (h : Listed derives values tokens) (hroom : (tokens ++ rest).length ≤ rounds) :
    Meets levels (needs values) tokens rest (Reader.listed rounds item) (.ok values rest) := by
  cases h with
  | none hleft hright =>
    rw [hnil]
    refine Meets.of_eq ?_
    refine (Run.bind_of_ok (Reader.expect_cons hleft)).trans ?_
    rw [Run.get_bind, if_pos (by simpa using hright)]
    exact Run.bind_of_ok (Reader.expect_cons hright)
  | @some left right values tokens hleft hvalues hright =>
    have hstart : Reader.nextIs .rightParen (tokens ++ right :: rest) = false := by
      cases hvalues with
      | one hvalue => exact hitem.starts rest hvalue (.inr hright)
      | more hvalue hcomma _ =>
        rw [List.append_assoc]
        exact hitem.starts _ hvalue (.inl hcomma)
    have hroom' : (tokens ++ right :: rest).length ≤ rounds := by
      simp only [List.cons_append, List.append_assoc, List.nil_append, List.length_cons,
        List.length_append] at hroom ⊢
      omega
    have hclose : ∀ first others, (do
        let _ ← Reader.expect .rightParen
        return first :: others : Reader (List α)) (right :: rest) = .ok (first :: others) rest :=
      fun first others ↦ Run.bind_of_ok (Reader.expect_cons hright)
    have hopen : Reader.listed rounds item (left :: (tokens ++ [right] ++ rest)) = (do
        let first ← item
        let others ← Reader.afterCommas item rounds
        let _ ← Reader.expect .rightParen
        return first :: others) (tokens ++ [right] ++ rest) := by
      rw [Reader.listed, Run.bind_of_ok (Reader.expect_cons hleft), Run.get_bind,
        if_neg (by simpa using hstart)]
    refine Meets.push hopen ?_
    cases hvalues with
    | @one value _ hvalue =>
      have hstop : Reader.nextIs .comma (right :: rest) = false := by simp [hright]
      rw [hneeds, hnil, Nat.max_zero]
      refine Meets.bindEq (hitem.meets hvalue (.inr hright) hroom') ?_
      exact (Run.bind_of_ok (afterCommas_of_not hstop rounds)).trans (hclose value [])
    | @more value values tokens others comma hvalue hcomma hothers =>
      rw [List.append_assoc, List.cons_append] at hroom' ⊢
      have hless : (others ++ right :: rest).length < rounds := by
        rw [List.length_append, List.length_cons] at hroom'
        omega
      have hmany : Meets levels (needs values) (comma :: others) (right :: rest)
          (Reader.afterCommas item rounds) (.ok values (right :: rest)) :=
        meets_afterCommas needs hitem hneeds hnil hright hothers hcomma (Nat.le_of_lt hless)
          (by rw [List.length_append] at hless; omega)
      have hlast : Meets levels (needs values) (comma :: others ++ [right]) rest (do
          let others ← Reader.afterCommas item rounds
          let _ ← Reader.expect .rightParen
          return value :: others) (.ok (value :: values) rest) :=
        Meets.bindEq hmany (hclose value values)
      have hfirst := hitem.meets hvalue (.inl hcomma) hroom'
      rw [hneeds]
      exact Meets.bind (by simpa using hfirst) hlast

end

/-! ### Types -/

theorem AreParameters.listed {trees : List Tree} {tokens : List Token}
    (h : AreParameters trees tokens) : Separated IsParameter trees tokens := by
  induction h using AreParameters.induct with
  | one hparameter => exact .one hparameter
  | more hparameter hcomma _ ih => exact .more hparameter hcomma ih

theorem typeWith_basic {function : Reader Tree} {token : Token} {name : DataType}
    {rest : List Token} (hkind : token.kind = .dataType) (hname : token.lexeme = some name.name) :
    Reader.typeWith function (token :: rest) = .ok (.basicType name) rest := by
  have htype : token.lexeme.bind DataType.ofName? = some name := by
    rw [hname, Option.bind_some, DataType.ofName?_name]
  unfold Reader.typeWith
  rw [Run.get_bind, List.head?_cons]
  simp only [hkind, htype]
  rfl

theorem typeWith_leftParen {function : Reader Tree} {token : Token} {rest : List Token}
    (hkind : token.kind = .leftParen) :
    Reader.typeWith function (token :: rest) = function (token :: rest) := by
  unfold Reader.typeWith
  rw [Run.get_bind, List.head?_cons]
  simp only [hkind]
  rfl

section

variable {rounds levels : Nat} {type : Reader Tree}
  (htype : ∀ {tree : Tree} {tokens rest : List Token}, IsType tree tokens →
    (tokens ++ rest).length ≤ rounds → Meets levels tree.nesting tokens rest type (.ok tree rest))

include htype

theorem meets_parameter : MeetsItem rounds levels (Reader.parameter type) IsParameter Tree.nesting := by
  constructor
  · intro parameter tokens token rest hparameter _
    cases hparameter with
    | named hname => simp [hname]
  · intro parameter tokens token rest hparameter _ hroom
    cases hparameter with
    | named hname hcolon hderived =>
      refine Meets.push (Run.bind_of_ok (Reader.expect_cons hname)) ?_
      refine Meets.push (Run.bind_of_ok (Reader.expect_cons hcolon)) ?_
      refine (htype hderived ?_).bindOk
      simp only [List.cons_append, List.length_cons] at hroom
      omega

theorem meets_functionType {parameters : List Tree} {result : Tree}
    {listTokens resultTokens rest : List Token} {arrow : Token}
    (hparameters : Listed IsParameter parameters listTokens) (harrow : arrow.kind = .arrow)
    (hresult : IsType result resultTokens)
    (hroom : (listTokens ++ arrow :: resultTokens ++ rest).length ≤ rounds) :
    Meets levels (max (Tree.nestings parameters) result.nesting) (listTokens ++ arrow :: resultTokens)
      rest (Reader.functionType rounds type) (.ok (.functionType parameters result) rest) := by
  rw [List.append_assoc] at hroom
  refine Meets.bind (meets_listed Tree.nestings (meets_parameter htype) (fun _ _ ↦ rfl) rfl hparameters hroom) ?_
  refine Meets.push (Run.bind_of_ok (Reader.expect_cons harrow)) ?_
  refine (htype hresult ?_).bindOk
  simp only [List.cons_append, List.length_cons, List.length_append] at hroom ⊢
  omega

end

theorem meets_type (rounds levels : Nat) : ∀ {tree : Tree} {tokens rest : List Token},
    IsType tree tokens → (tokens ++ rest).length ≤ rounds →
      Meets levels tree.nesting tokens rest (Reader.type rounds levels) (.ok tree rest) := by
  induction levels with
  | zero =>
    intro tree tokens rest htype hroom
    cases htype with
    | basic hkind hname => exact Meets.of_eq (typeWith_basic hkind hname)
    | constant hleft => exact (Meets.tooDeep (by simp)).congr (typeWith_leftParen hleft)
    | function hleft => exact (Meets.tooDeep (by simp)).congr (typeWith_leftParen hleft)
  | succ levels ih =>
    intro tree tokens rest htype hroom
    cases htype with
    | basic hkind hname => exact Meets.of_eq (typeWith_basic hkind hname)
    | constant hleft hright harrow hresult =>
      refine Meets.succ (Meets.congr ?_ (typeWith_leftParen hleft))
      exact meets_functionType ih (.none hleft hright) harrow hresult hroom
    | function hleft hparameters hright harrow hresult =>
      refine Meets.succ (Meets.congr ?_ (typeWith_leftParen hleft))
      refine (meets_functionType ih (.some hleft hparameters.listed hright) harrow hresult ?_).cast
        (by simp) rfl
      simpa using hroom

end LetLang
