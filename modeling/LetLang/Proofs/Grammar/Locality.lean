import LetLang.Proofs.Grammar.Backtracking
import LetLang.Proofs.Grammar.Completeness
import LetLang.Proofs.Grammar.Viability

/-!
# Reading depends on nothing behind the place where it ends

Two inputs share their first tokens and go on in different ways (`Fork`). A reader that ends before a
shared token, with a value or because it expected something else, ends in the same way at the same
place on the other input (`Alike`). This is what makes the token at which a parse stops the first
wrong one: no other continuation of the tokens up to it, itself included, is read either.

At two places a reader looks at the token after the next before it takes any: at a name, which is the
start of an assignment if `=` follows, and at an `else`, which starts another branch if `if` follows.
When the name or the `else` is the last shared token, the two inputs may be read in different ways
from there. Both ways take that token, so the reader does not end before a shared one (`Passes`).

The nesting limit plays no part: a reader that is stopped by it is compared with nothing, and the
other reader may open more levels.
-/

set_option autoImplicit false

namespace LetLang

/-! ### Two inputs with a common front -/

/-- How a reader ends, and what it leaves: with a value, or with the reason why the tokens do not fit.
Nothing is said of readers stopped by the limit of nesting or by a wrong name of a data type. -/
def Reader.ending? {α : Type} (reader : Reader α) (input : List Token) :
    Option (Except SyntaxCause α × List Token) :=
  match reader input with
  | .ok value rest => some (.ok value, rest)
  | .error (.misfit (.nesting _)) _ => none
  | .error (.misfit cause) rest => some (.error cause, rest)
  | .error (.unknownDataType _) _ => none

/-- Two inputs that start with the same tokens. -/
structure Fork where
  shared : List Token
  one : List Token
  other : List Token

namespace Fork

variable (fork : Fork) (index : Nat)

/-- What the first input has from an index on. -/
def here : List Token := (fork.shared ++ fork.one).drop index

/-- What the second input has from an index on. -/
def there : List Token := (fork.shared ++ fork.other).drop index

/-- The number of shared tokens. -/
def horizon : Nat := fork.shared.length

variable {fork index}

@[simp] theorem tail_here : (fork.here index).tail = fork.here (index + 1) := by
  simp [here]

@[simp] theorem tail_there : (fork.there index).tail = fork.there (index + 1) := by
  simp [there]

theorem length_here : (fork.here index).length = (fork.shared ++ fork.one).length - index := by
  simp [here]

theorem here_cons {token : Token} (hhere : (fork.here index).head? = some token) :
    fork.here index = token :: fork.here (index + 1) := by
  obtain ⟨rest, hrest⟩ := List.head?_eq_some_iff.mp hhere
  rw [← tail_here, hrest, List.tail_cons]

theorem there_getElem? {ahead : Nat} (hshared : index + ahead < fork.horizon) :
    (fork.there index)[ahead]? = (fork.here index)[ahead]? := by
  unfold horizon at hshared
  simp only [here, there, List.getElem?_drop]
  rw [List.getElem?_append_left hshared, List.getElem?_append_left hshared]

theorem head?_there (hshared : index < fork.horizon) :
    (fork.there index).head? = (fork.here index).head? := by
  rw [List.head?_eq_getElem?, List.head?_eq_getElem?]
  exact there_getElem? hshared

theorem there_cons {token : Token} (hhere : (fork.here index).head? = some token)
    (hshared : index < fork.horizon) : fork.there index = token :: fork.there (index + 1) := by
  obtain ⟨rest, hrest⟩ := List.head?_eq_some_iff.mp ((head?_there hshared).trans hhere)
  rw [← tail_there, hrest, List.tail_cons]

theorem horizon_le_one : fork.horizon ≤ (fork.shared ++ fork.one).length := by
  simp [horizon]

theorem horizon_le_other : fork.horizon ≤ (fork.shared ++ fork.other).length := by
  simp [horizon]

/-- There are as many rounds on either side as there are tokens in its input. -/
structure Room (fork : Fork) (rounds rounds' : Nat) : Prop where
  one : (fork.shared ++ fork.one).length ≤ rounds
  other : (fork.shared ++ fork.other).length ≤ rounds'

end Fork

/-- Wherever the reader ends on the first input, started at the index, it is not before a shared
token. -/
def Passes {α : Type} (fork : Fork) (index : Nat) (reader : Reader α) : Prop :=
  ∀ ending rest, reader.ending? (fork.here index) = some (ending, rest) →
    ∃ stop, index ≤ stop ∧ fork.horizon ≤ stop ∧ rest = fork.here stop

/-- If the first reader ends before a shared token, started at the index on the first input, then the
second ends in the same way and at the same place on the second input. -/
def Alike {α : Type} (fork : Fork) (index : Nat) (reader reader' : Reader α) : Prop :=
  ∀ ending rest, reader.ending? (fork.here index) = some (ending, rest) →
    ∃ stop, index ≤ stop ∧ rest = fork.here stop ∧
      (stop < fork.horizon → reader'.ending? (fork.there index) = some (ending, fork.there stop))

section

variable {α β : Type} {fork : Fork} {index : Nat}

theorem Passes.alike {reader reader' : Reader α} (hreader : Passes fork index reader) :
    Alike fork index reader reader' := by
  intro ending rest hending
  obtain ⟨stop, hlater, hbehind, hrest⟩ := hreader ending rest hending
  exact ⟨stop, hlater, hrest, fun hbefore ↦ absurd hbefore (Nat.not_lt.mpr hbehind)⟩

theorem Alike.passes {reader reader' : Reader α} (hreader : Alike fork index reader reader')
    (hbehind : fork.horizon ≤ index) : Passes fork index reader := by
  intro ending rest hending
  obtain ⟨stop, hlater, hrest, -⟩ := hreader ending rest hending
  exact ⟨stop, hlater, Nat.le_trans hbehind hlater, hrest⟩

theorem Reader.ending?_of_ok {reader : Reader α} {input rest : List Token} {value : α}
    (hread : reader input = .ok value rest) : reader.ending? input = some (.ok value, rest) := by
  rw [ending?, hread]

theorem Reader.eq_ok_of_ending? {reader : Reader α} {input rest : List Token} {value : α}
    (hending : reader.ending? input = some (.ok value, rest)) : reader input = .ok value rest := by
  unfold ending? at hending
  split at hending <;> cases hending
  assumption

/-- What ends two readers, one after the other: an obstacle to the first, or what ends the second. -/
theorem Reader.ending?_bind {reader : Reader α} {next : α → Reader β} {input : List Token} :
    (reader >>= next).ending? input =
      match reader.ending? input with
      | some (.ok value, rest) => (next value).ending? rest
      | some (.error cause, rest) => some (.error cause, rest)
      | none => none := by
  unfold ending?
  cases hread : reader input with
  | ok value rest => rw [Run.bind_of_ok hread]
  | error obstacle rest =>
    rw [Run.bind_of_error hread]
    cases obstacle with
    | misfit cause => cases cause <;> rfl
    | unknownDataType lexeme => rfl

theorem Passes.bind {reader : Reader α} {next : α → Reader β} (hreader : Passes fork index reader)
    (hnext : ∀ value later, index ≤ later → fork.horizon ≤ later → Passes fork later (next value)) :
    Passes fork index (reader >>= next) := by
  intro ending rest hending
  rw [Reader.ending?_bind] at hending
  split at hending
  · next value middle hvalue =>
    obtain ⟨later, hlater, hbehind, rfl⟩ := hreader _ _ hvalue
    obtain ⟨stop, hstop, hhorizon, hrest⟩ := hnext value later hlater hbehind ending rest hending
    exact ⟨stop, Nat.le_trans hlater hstop, hhorizon, hrest⟩
  · next cause middle hcause =>
    cases hending
    exact hreader _ _ hcause
  · cases hending

theorem Passes.congr {reader next : Reader α} {later : Nat} (hnext : Passes fork later next)
    (hrun : reader (fork.here index) = next (fork.here later)) (hlater : index ≤ later) :
    Passes fork index reader := by
  intro ending rest hending
  rw [Reader.ending?, hrun] at hending
  obtain ⟨stop, hstop, hhorizon, hrest⟩ := hnext ending rest hending
  exact ⟨stop, Nat.le_trans hlater hstop, hhorizon, hrest⟩

namespace Alike

theorem pure (value : α) : Alike fork index (Pure.pure value) (Pure.pure value) := by
  intro ending rest hending
  cases hending
  exact ⟨index, Nat.le_refl index, rfl, fun _ ↦ rfl⟩

theorem fail (what : Expected) : Alike fork index (Reader.fail what : Reader α) (Reader.fail what) := by
  intro ending rest hending
  cases hending
  exact ⟨index, Nat.le_refl index, rfl, fun _ ↦ rfl⟩

theorem tooDeep {reader' : Reader α} : Alike fork index Reader.tooDeep reader' := by
  intro ending rest hending
  cases hending

theorem bind {reader reader' : Reader α} {next next' : α → Reader β}
    (hreader : Alike fork index reader reader')
    (hnext : ∀ value later, index ≤ later →
      reader (fork.here index) = .ok value (fork.here later) →
        Alike fork later (next value) (next' value)) :
    Alike fork index (reader >>= next) (reader' >>= next') := by
  intro ending rest hending
  rw [Reader.ending?_bind] at hending
  split at hending
  · next value middle hvalue =>
    obtain ⟨later, hlater, rfl, hsame⟩ := hreader _ _ hvalue
    obtain ⟨stop, hstop, hrest, hnextSame⟩ :=
      hnext value later hlater (Reader.eq_ok_of_ending? hvalue) ending rest hending
    refine ⟨stop, Nat.le_trans hlater hstop, hrest, fun hbefore ↦ ?_⟩
    rw [Reader.ending?_bind, hsame (Nat.lt_of_le_of_lt hstop hbefore)]
    exact hnextSame hbefore
  · next cause middle hcause =>
    cases hending
    obtain ⟨stop, hstop, hrest, hsame⟩ := hreader _ _ hcause
    refine ⟨stop, hstop, hrest, fun hbefore ↦ ?_⟩
    rw [Reader.ending?_bind, hsame hbefore]
  · cases hending

/-- On the way to where other readers are compared. -/
theorem congr {reader reader' next next' : Reader α} {later : Nat}
    (hnext : Alike fork later next next')
    (hrun : reader (fork.here index) = next (fork.here later))
    (hrun' : index < fork.horizon → reader' (fork.there index) = next' (fork.there later))
    (hlater : index ≤ later) : Alike fork index reader reader' := by
  intro ending rest hending
  rw [Reader.ending?, hrun] at hending
  obtain ⟨stop, hstop, hrest, hsame⟩ := hnext ending rest hending
  refine ⟨stop, Nat.le_trans hlater hstop, hrest, fun hbefore ↦ ?_⟩
  rw [Reader.ending?, hrun' (by omega)]
  exact hsame hbefore

/-- Behind the shared tokens it does not matter what the second input is. Before, it has the same next
token, and the same token after that unless only one is shared. -/
theorem get {next next' : List Token → Reader α}
    (hnext : ∀ input', input'.head? = (fork.here index).head? →
      (index + 1 ≠ fork.horizon → input'[1]? = (fork.here index)[1]?) →
        Alike fork index (next (fork.here index)) (next' input')) :
    Alike fork index (MonadState.get >>= next) (MonadState.get >>= next') := by
  by_cases hshared : index < fork.horizon
  · refine congr (hnext (fork.there index) (Fork.head?_there hshared) fun hmore ↦ ?_) rfl
      (fun _ ↦ rfl) (Nat.le_refl index)
    exact Fork.there_getElem? (by omega)
  · have hbehind := hnext (fork.here index) rfl fun _ ↦ rfl
    exact (Passes.congr (hbehind.passes (by omega)) rfl (Nat.le_refl index)).alike

theorem skip {next next' : Unit → Reader α}
    (hnext : Alike fork (index + 1) (next ()) (next' ())) :
    Alike fork index (Reader.skip >>= next) (Reader.skip >>= next') := by
  refine congr hnext ?_ (fun _ ↦ ?_) (Nat.le_succ index)
  · exact Run.bind_of_ok (congrArg (EStateM.Result.ok ()) Fork.tail_here)
  · exact Run.bind_of_ok (congrArg (EStateM.Result.ok ()) Fork.tail_there)

/-- A reader that decides by the kind of the next token, and takes the token if it is of that kind. -/
theorem onKind (kind : TokenKind) {reader reader' no no' : Reader α} {yes yes' : Token → Reader α}
    (hyes : ∀ token, token.kind = kind → Alike fork (index + 1) (yes token) (yes' token))
    (hno : Alike fork index no no')
    (htake : ∀ {token : Token} {rest : List Token}, token.kind = kind →
      reader (token :: rest) = yes token rest ∧ reader' (token :: rest) = yes' token rest)
    (hleave : ∀ {input : List Token}, Reader.nextIs kind input = false →
      reader input = no input ∧ reader' input = no' input) : Alike fork index reader reader' := by
  by_cases hkind : Reader.nextIs kind (fork.here index) = true
  · obtain ⟨token, rest, hhere, htoken⟩ := Reader.exists_of_nextIs hkind
    have hnext : (fork.here index).head? = some token := by rw [hhere, List.head?_cons]
    refine congr (hyes token htoken) ?_ (fun hshared ↦ ?_) (Nat.le_succ index)
    · rw [Fork.here_cons hnext]
      exact (htake htoken).1
    · rw [Fork.there_cons hnext hshared]
      exact (htake htoken).2
  · have hnot : Reader.nextIs kind (fork.here index) = false := by simpa using hkind
    refine congr hno (hleave hnot).1 (fun hshared ↦ (hleave ?_).2) (Nat.le_refl index)
    rw [Reader.nextIs, Fork.head?_there hshared]
    exact hnot

theorem expect {kind : TokenKind} {next next' : Lexeme → Reader α}
    (hnext : ∀ lexeme, Alike fork (index + 1) (next lexeme) (next' lexeme)) :
    Alike fork index (Reader.expect kind >>= next) (Reader.expect kind >>= next') := by
  refine onKind kind (fun token _ ↦ hnext token.lexeme) (fail (.token kind)) ?_ ?_
  · intro token rest htoken
    exact ⟨Run.bind_of_ok (Reader.expect_cons htoken), Run.bind_of_ok (Reader.expect_cons htoken)⟩
  · intro input hnot
    have hstop := Reader.expect_of_not hnot
    exact ⟨Run.bind_of_error hstop, Run.bind_of_error hstop⟩

theorem accept {kind : TokenKind} {next next' : Bool → Reader α}
    (hyes : Alike fork (index + 1) (next true) (next' true))
    (hno : Alike fork index (next false) (next' false)) :
    Alike fork index (Reader.accept kind >>= next) (Reader.accept kind >>= next') := by
  refine onKind kind (fun _ _ ↦ hyes) hno ?_ ?_
  · intro token rest htoken
    exact ⟨Run.bind_of_ok (Reader.accept_cons htoken), Run.bind_of_ok (Reader.accept_cons htoken)⟩
  · intro input hnot
    have hleave := Reader.accept_of_not hnot
    exact ⟨Run.bind_of_ok hleave, Run.bind_of_ok hleave⟩

/-- Loops with enough rounds for the tokens that are left, of which each round takes at least one. With
no rounds left there are no tokens left, so the end of the shared ones was passed. -/
theorem loop {ι : Type} (reader reader' : Nat → ι → Reader α)
    (hzero : ∀ index state, fork.horizon ≤ index → Passes fork index (reader 0 state))
    (hstep : ∀ rounds rounds' index state,
      (∀ later state, index < later →
        Alike fork later (reader rounds state) (reader' rounds' state)) →
      Alike fork index (reader (rounds + 1) state) (reader' (rounds' + 1) state)) (rounds : Nat) :
    ∀ (rounds' index : Nat) (state : ι), (fork.shared ++ fork.one).length ≤ rounds + index →
      (fork.shared ++ fork.other).length ≤ rounds' + index →
        Alike fork index (reader rounds state) (reader' rounds' state) := by
  have hone := fork.horizon_le_one
  have hother := fork.horizon_le_other
  induction rounds with
  | zero =>
    intro rounds' index state hrounds _
    exact (hzero index state (by omega)).alike
  | succ rounds ih =>
    intro rounds' index state hrounds hrounds'
    cases rounds' with
    | zero =>
      have hround := hstep rounds (fork.shared ++ fork.other).length index state
        fun later state hlater ↦ ih _ later state (by omega) (by omega)
      exact (hround.passes (by omega)).alike
    | succ rounds' =>
      exact hstep rounds rounds' index state
        fun later state hlater ↦ ih rounds' later state (by omega) (by omega)

end Alike

end

/-! ### Lists -/

section

variable {α : Type} {fork : Fork} {item item' : Reader α} {rounds rounds' : Nat}

theorem alike_afterCommas (hitem : ∀ index, Alike fork index item item')
    (hroom : fork.Room rounds rounds') (index : Nat) :
    Alike fork index (Reader.afterCommas item rounds) (Reader.afterCommas item' rounds') := by
  refine Alike.loop (fun rounds _ ↦ Reader.afterCommas item rounds)
    (fun rounds _ ↦ Reader.afterCommas item' rounds) (fun _ _ ↦ (Alike.pure []).passes) ?_
    rounds rounds' index () (Nat.le_add_right_of_le hroom.one) (Nat.le_add_right_of_le hroom.other)
  intro rounds rounds' index _ ih
  refine .accept ?_ (.pure [])
  refine .bind (hitem (index + 1)) fun first later hlater _ ↦ ?_
  exact .bind (ih later () hlater) fun rest _ _ _ ↦ .pure (first :: rest)

theorem alike_listed (hitem : ∀ index, Alike fork index item item')
    (hroom : fork.Room rounds rounds') (index : Nat) :
    Alike fork index (Reader.listed rounds item) (Reader.listed rounds' item') := by
  refine .expect fun _ ↦ .get fun input' hhead _ ↦ ?_
  rw [Reader.nextIs, Reader.nextIs, hhead]
  split
  · exact .expect fun _ ↦ .pure []
  · refine .bind (hitem (index + 1)) fun first later hlater _ ↦ ?_
    refine .bind (alike_afterCommas hitem hroom later) fun rest later hlater _ ↦ ?_
    exact .expect fun _ ↦ .pure (first :: rest)

end

/-! ### Types -/

section

variable {fork : Fork}

theorem alike_typeWith {function function' : Reader Tree} {index : Nat}
    (hfunction : Alike fork index function function') :
    Alike fork index (Reader.typeWith function) (Reader.typeWith function') := by
  refine .get fun input' hhead _ ↦ ?_
  rw [hhead]
  cases (fork.here index).head? with
  | none => exact .fail .type
  | some token =>
    dsimp only
    split
    · cases token.lexeme.bind DataType.ofName? with
      | none =>
        intro ending rest hending
        cases hending
      | some name => exact .skip (.pure _)
    · split
      · exact hfunction
      · exact .fail .type

variable {rounds rounds' : Nat} (hroom : fork.Room rounds rounds')

include hroom

theorem alike_functionType {type type' : Reader Tree} (htype : ∀ index, Alike fork index type type')
    (index : Nat) :
    Alike fork index (Reader.functionType rounds type) (Reader.functionType rounds' type') := by
  have hparameter : ∀ index, Alike fork index (Reader.parameter type) (Reader.parameter type') := by
    intro index
    refine .expect fun name ↦ .expect fun _ ↦ ?_
    exact .bind (htype _) fun type _ _ _ ↦ .pure _
  refine .bind (alike_listed hparameter hroom index) fun parameters later _ _ ↦ ?_
  refine .expect fun _ ↦ ?_
  exact .bind (htype _) fun result _ _ _ ↦ .pure _

theorem alike_type (levels : Nat) : ∀ (levels' index : Nat), levels ≤ levels' →
    Alike fork index (Reader.type rounds levels) (Reader.type rounds' levels') := by
  induction levels with
  | zero =>
    intro levels' index _
    cases levels' with
    | zero => exact alike_typeWith .tooDeep
    | succ levels' => exact alike_typeWith .tooDeep
  | succ levels ih =>
    intro levels' index hle
    obtain ⟨levels', rfl⟩ : ∃ less, levels' = less + 1 := ⟨levels' - 1, by omega⟩
    exact alike_typeWith (alike_functionType hroom
      (fun index ↦ ih levels' index (Nat.le_of_succ_le_succ hle)) index)

end

/-! ### Expressions -/

namespace Reader

/-- What follows a name in a factor: the arguments of a call, or nothing. -/
def afterName (rounds : Nat) (level : ReaderLevel) (name : Lexeme) : Reader Tree := do
  if nextIs .leftParen (← get) then
    return .call name (← listed rounds level.expression)
  else return .identifier name

/-- What follows the first sum of a comparison: the rest of it, or nothing. -/
def afterAdditive (rounds : Nat) (level : ReaderLevel) (left : Tree) : Reader Tree := do
  match (← get).head?.bind (CompareOp.ofKind? ·.kind) with
  | some op =>
    skip
    let right ← additive rounds level
    return .comparison left op right
  | none => return left

/-- What follows an expression that is a statement. -/
def statementEnd (expression : Tree) : Reader Tree := do
  if expression.isBraced then
    let _ ← accept .semicolon
    return .statement expression
  else
    let _ ← expect .semicolon
    return .statement expression

end Reader

/-- The token at the index is a name, and the last of the shared tokens. -/
def Fork.EndsInName (fork : Fork) (index : Nat) : Prop :=
  ∃ token, (fork.here index).head? = some token ∧ token.kind = .identifier ∧
    fork.horizon = index + 1

/-- What the first level reads is read alike by the second, and where the last shared token is a name,
an expression takes it. -/
structure AlikeLevel (fork : Fork) (level level' : ReaderLevel) : Prop where
  type : ∀ index, Alike fork index level.type level'.type
  expression : ∀ index, Alike fork index level.expression level'.expression
  name : ∀ {index : Nat}, fork.EndsInName index → Passes fork index level.expression

section

variable {fork : Fork} {rounds rounds' : Nat} (hroom : fork.Room rounds rounds')

include hroom

theorem alike_chain {operation? : TokenKind → Option ArithOp} {operand operand' : Reader Tree}
    (hoperand : ∀ index, Alike fork index operand operand') (index : Nat) (left : Tree) :
    Alike fork index (Reader.chain operation? operand rounds left)
      (Reader.chain operation? operand' rounds' left) := by
  refine Alike.loop (Reader.chain operation? operand) (Reader.chain operation? operand')
    (fun _ left ↦ (Alike.pure left).passes) ?_ rounds rounds' index left
    (Nat.le_add_right_of_le hroom.one) (Nat.le_add_right_of_le hroom.other)
  intro rounds rounds' index left ih
  refine .get fun input' hhead _ ↦ ?_
  rw [hhead]
  cases (fork.here index).head?.bind (operation? ·.kind) with
  | none => exact .pure left
  | some op =>
    refine .skip (.bind (hoperand (index + 1)) fun right later hlater _ ↦ ?_)
    exact ih later (.arith op left right) hlater

variable {level level' : ReaderLevel} (hlevel : AlikeLevel fork level level')

include hlevel

theorem alike_afterName (index : Nat) (name : Lexeme) :
    Alike fork index (Reader.afterName rounds level name) (Reader.afterName rounds' level' name) := by
  refine .get fun input' hhead _ ↦ ?_
  rw [Reader.nextIs, Reader.nextIs, hhead]
  split
  · refine .bind (alike_listed hlevel.expression hroom index) fun arguments _ _ _ ↦ ?_
    exact .pure _
  · exact .pure _

theorem alike_factor (index : Nat) :
    Alike fork index (Reader.factor rounds level) (Reader.factor rounds' level') := by
  refine .get fun input' hhead _ ↦ ?_
  rw [hhead]
  cases (fork.here index).head? with
  | none => exact .fail .expression
  | some token =>
    dsimp only
    split
    · exact .skip (.pure _)
    split
    · unfold Reader.typedLiteral
      cases token.number? with
      | none => exact .fail .expression
      | some number => exact .skip (.pure number)
    split
    · exact .skip (alike_afterName hroom hlevel (index + 1) token.lexeme)
    split
    · refine .skip (.bind (hlevel.expression (index + 1)) fun inner later _ _ ↦ ?_)
      exact .expect fun _ ↦ .pure _
    · exact .fail .expression

theorem alike_term (index : Nat) :
    Alike fork index (Reader.term rounds level) (Reader.term rounds' level') := by
  have hfactor := alike_factor hroom hlevel
  refine .accept ?_ ?_
  · refine .bind (hfactor (index + 1)) fun first later _ _ ↦ ?_
    exact alike_chain hroom hfactor later (.negation first)
  · refine .bind (hfactor index) fun first later _ _ ↦ ?_
    exact alike_chain hroom hfactor later first

theorem alike_additive (index : Nat) :
    Alike fork index (Reader.additive rounds level) (Reader.additive rounds' level') := by
  have hterm := alike_term hroom hlevel
  refine .bind (hterm index) fun first later _ _ ↦ ?_
  exact alike_chain hroom hterm later first

theorem alike_afterAdditive (index : Nat) (left : Tree) :
    Alike fork index (Reader.afterAdditive rounds level left)
      (Reader.afterAdditive rounds' level' left) := by
  refine .get fun input' hhead _ ↦ ?_
  rw [hhead]
  cases (fork.here index).head?.bind (CompareOp.ofKind? ·.kind) with
  | none => exact .pure left
  | some op =>
    refine .skip (.bind (alike_additive hroom hlevel (index + 1)) fun right _ _ _ ↦ ?_)
    exact .pure _

theorem alike_comparison (index : Nat) :
    Alike fork index (Reader.comparison rounds level) (Reader.comparison rounds' level') :=
  .bind (alike_additive hroom hlevel index) fun left later _ _ ↦
    alike_afterAdditive hroom hlevel later left

/-! ### Names -/

variable {index : Nat} (hends : fork.EndsInName index)

include hends

theorem passes_factor : Passes fork index (Reader.factor rounds level) := by
  obtain ⟨token, hhere, hname, hlast⟩ := hends
  have hafter := alike_afterName hroom hlevel (index + 1) token.lexeme
  refine Passes.congr (hafter.passes (Nat.le_of_eq hlast)) ?_ (Nat.le_succ index)
  rw [Fork.here_cons hhere]
  unfold Reader.factor
  rw [Run.get_bind, List.head?_cons]
  simp only [hname]
  rfl

theorem passes_term : Passes fork index (Reader.term rounds level) := by
  have hfactor := alike_factor hroom hlevel
  have hunsigned : Passes fork index (do
      let first ← Reader.factor rounds level
      Reader.chain multiplicativeOp? (Reader.factor rounds level) rounds first) :=
    (passes_factor hroom hlevel hends).bind fun first later _ hbehind ↦
      (alike_chain hroom hfactor later first).passes hbehind
  refine Passes.congr hunsigned (Run.bind_of_ok (Reader.accept_of_not ?_)) (Nat.le_refl index)
  obtain ⟨token, hhere, hname, -⟩ := hends
  rw [Fork.here_cons hhere, Reader.nextIs_cons, hname]
  rfl

theorem passes_comparison : Passes fork index (Reader.comparison rounds level) := by
  have hterm := alike_term hroom hlevel
  have hadditive : Passes fork index (Reader.additive rounds level) :=
    (passes_term hroom hlevel hends).bind fun first later _ hbehind ↦
      (alike_chain hroom hterm later first).passes hbehind
  exact hadditive.bind fun left later _ hbehind ↦
    (alike_afterAdditive hroom hlevel later left).passes hbehind

theorem passes_expressionWith : Passes fork index (Reader.expressionWith rounds level) := by
  refine Passes.congr (passes_comparison hroom hlevel hends) ?_ (Nat.le_refl index)
  obtain ⟨token, hhere, hname, -⟩ := hends
  rw [Fork.here_cons hhere]
  exact expressionWith_of_opensTerm (by rw [hname]; rfl)

end

/-! ### Statements -/

theorem Reader.declKeyword?_congr {input input' : List Token} (hhead : input'.head? = input.head?) :
    declKeyword? input' = declKeyword? input := by
  unfold declKeyword? nextIsKeyword
  rw [hhead]

section

variable {fork : Fork} {index : Nat} {level level' : ReaderLevel}

/-- A test of the next token, and of the one after it if the next passes, comes out alike unless the
next is the last shared token and passes. -/
theorem any_two_congr {first second : Token → Bool} {input' : List Token}
    (hhead : input'.head? = (fork.here index).head?)
    (hsecond : index + 1 ≠ fork.horizon → input'[1]? = (fork.here index)[1]?)
    (hlast : ∀ token, (fork.here index).head? = some token → first token = true →
      index + 1 ≠ fork.horizon) :
    (input'.head?.any first && input'[1]?.any second) =
      ((fork.here index).head?.any first && (fork.here index)[1]?.any second) := by
  rw [hhead]
  cases hnext : (fork.here index).head? with
  | none => rfl
  | some token =>
    by_cases hfirst : first token = true
    · rw [hsecond (hlast token hnext hfirst)]
    · rw [Option.any_some, Bool.eq_false_iff.mpr hfirst, Bool.false_and, Bool.false_and]

theorem startsAssignment_congr {input' : List Token}
    (hhead : input'.head? = (fork.here index).head?)
    (hsecond : index + 1 ≠ fork.horizon → input'[1]? = (fork.here index)[1]?)
    (hends : ¬ fork.EndsInName index) :
    Reader.startsAssignment input' = Reader.startsAssignment (fork.here index) := by
  refine any_two_congr hhead hsecond fun token hnext hname hlast ↦ ?_
  exact hends ⟨token, hnext, by simpa using hname, hlast.symm⟩

theorem opens_of_endsInName (hends : fork.EndsInName index)
    (hassignment : Reader.startsAssignment (fork.here index) = false) : Opens (fork.here index) := by
  obtain ⟨token, hhere, hname, -⟩ := hends
  rw [Fork.here_cons hhere] at hassignment ⊢
  exact opens_of_opensTerm (by rw [hname]; rfl) hassignment

theorem alike_statementEnd (index : Nat) (expression : Tree) :
    Alike fork index (Reader.statementEnd expression) (Reader.statementEnd expression) := by
  unfold Reader.statementEnd
  split
  · exact .accept (.pure _) (.pure _)
  · exact .expect fun _ ↦ .pure _

variable (hlevel : AlikeLevel fork level level')

include hlevel

theorem alike_declaration (index : Nat) (keyword : DeclKeyword) :
    Alike fork index (Reader.declaration level keyword) (Reader.declaration level' keyword) := by
  refine .skip (.expect fun name ↦ .expect fun _ ↦ ?_)
  refine .bind (hlevel.type _) fun type later _ _ ↦ .expect fun _ ↦ ?_
  exact .bind (hlevel.expression _) fun value later _ _ ↦ .expect fun _ ↦ .pure _

theorem alike_assignmentBody (index : Nat) (name : Lexeme) :
    Alike fork index (Reader.assignmentBody level name) (Reader.assignmentBody level' name) := by
  refine .expect fun _ ↦ ?_
  exact .bind (hlevel.expression _) fun value later _ _ ↦ .expect fun _ ↦ .pure _

theorem alike_assignment (index : Nat) :
    Alike fork index (Reader.assignment level) (Reader.assignment level') :=
  .expect fun name ↦ alike_assignmentBody hlevel (index + 1) name

theorem alike_expressionStatement (index : Nat) :
    Alike fork index (Reader.expressionStatement level) (Reader.expressionStatement level') :=
  .bind (hlevel.expression index) fun expression later _ _ ↦ alike_statementEnd later expression

theorem passes_assignment (hends : fork.EndsInName index) :
    Passes fork index (Reader.assignment level) := by
  obtain ⟨token, hhere, hname, hlast⟩ := hends
  have hbody := alike_assignmentBody hlevel (index + 1) token.lexeme
  refine Passes.congr (hbody.passes (Nat.le_of_eq hlast)) ?_ (Nat.le_succ index)
  rw [Fork.here_cons hhere]
  exact Run.bind_of_ok (Reader.expect_cons hname)

theorem passes_statement (hends : fork.EndsInName index) :
    Passes fork index (Reader.statement level) := by
  have hkeyword : Reader.declKeyword? (fork.here index) = none := by
    obtain ⟨token, hhere, hname, -⟩ := hends
    rw [Fork.here_cons hhere]
    exact declKeyword?_of_identifier hname _
  by_cases hassignment : Reader.startsAssignment (fork.here index) = true
  · refine Passes.congr (passes_assignment hlevel hends) ?_ (Nat.le_refl index)
    exact statement_assignment hkeyword hassignment
  · have hpasses : Passes fork index (Reader.expressionStatement level) :=
      (hlevel.name hends).bind fun expression later _ hbehind ↦
        (alike_statementEnd later expression).passes hbehind
    refine Passes.congr hpasses ?_ (Nat.le_refl index)
    exact statement_expression (opens_of_endsInName hends (by simpa using hassignment))

theorem alike_statement (index : Nat) :
    Alike fork index (Reader.statement level) (Reader.statement level') := by
  by_cases hends : fork.EndsInName index
  · exact (passes_statement hlevel hends).alike
  refine .get fun input' hhead _ ↦ ?_
  rw [Reader.declKeyword?_congr hhead]
  cases Reader.declKeyword? (fork.here index) with
  | some keyword => exact alike_declaration hlevel index keyword
  | none =>
    refine .get fun input' hhead hsecond ↦ ?_
    rw [startsAssignment_congr hhead hsecond hends]
    split
    · exact alike_assignment hlevel index
    · exact alike_expressionStatement hlevel index

end

/-! ### Blocks -/

/-- A reader that takes tokens moves on. -/
theorem Fork.lt_of_ok {α : Type} {fork : Fork} {index later : Nat} {reader : Reader α}
    {property : α → List Token → Prop} (hyields : Yields reader (fork.here index) property)
    (hne : ∀ value tokens, property value tokens → tokens ≠ []) {value : α}
    (hread : reader (fork.here index) = .ok value (fork.here later)) : index < later := by
  obtain ⟨taken, hhere, -, hvalue⟩ := hyields value _ hread
  have hpositive := List.length_pos_iff.mpr (hne value taken hvalue)
  have hlength := congrArg List.length hhere
  rw [List.length_append, Fork.length_here, Fork.length_here] at hlength
  omega

section

variable {fork : Fork} {index : Nat}

theorem alike_closingBrace (index : Nat) :
    Alike (α := List Tree × Tree) fork index
      (do let _ ← Reader.expect .rightCurly; return ([], .absent))
      (do let _ ← Reader.expect .rightCurly; return ([], .absent)) :=
  .expect fun _ ↦ .pure _

theorem alike_prepend {more more' : Reader (List Tree × Tree)} (first : Tree)
    (hmore : Alike fork index more more') :
    Alike fork index (Reader.prepend first more) (Reader.prepend first more') :=
  .bind hmore fun _ _ _ _ ↦ .pure _

theorem alike_afterExpression {more more' : Reader (List Tree × Tree)} (expression : Tree)
    (hmore : ∀ later, index ≤ later → Alike fork later more more') :
    Alike fork index (Reader.afterExpression expression more)
      (Reader.afterExpression expression more') := by
  refine .get fun input' hhead _ ↦ ?_
  rw [Reader.nextIs, Reader.nextIs, hhead]
  split
  · exact .skip (.pure _)
  split
  · exact .accept (alike_prepend _ (hmore _ (Nat.le_succ index)))
      (alike_prepend _ (hmore index (Nat.le_refl index)))
  · exact .expect fun _ ↦ alike_prepend _ (hmore _ (Nat.le_succ index))

variable {rounds rounds' levels : Nat} {level level' : ReaderLevel}
  (hlevel : AlikeLevel fork level level') (hsound : SoundLevel level levels)

include hlevel

theorem passes_elements {more more' : Nat}
    (hmore : ∀ later, index < later →
      Alike fork later (Reader.elements level more) (Reader.elements level' more'))
    (hends : fork.EndsInName index) : Passes fork index (Reader.elements level (more + 1)) := by
  obtain ⟨token, hhere, hname, hlast⟩ := id hends
  have hhead := Fork.here_cons hhere
  by_cases hassignment : Reader.startsAssignment (fork.here index) = true
  · have hrest : Passes fork index (do
        let first ← Reader.assignment level
        Reader.prepend first (Reader.elements level more)) :=
      (passes_assignment hlevel hends).bind fun first later _ hbehind ↦
        (alike_prepend first (hmore later (by omega))).passes hbehind
    refine Passes.congr hrest (elements_assignment ?_ ?_ hassignment) (Nat.le_refl index)
    · rw [hhead]
      exact ⟨by simp [hname], by simp [hname], by simp [hname], by simp [Token.isKeyword, hname],
        by simp [Reader.atEnd, hname]⟩
    · rw [hhead]
      exact declKeyword?_of_identifier hname _
  · have hrest : Passes fork index (do
        let expression ← level.expression
        Reader.afterExpression expression (Reader.elements level more)) :=
      (hlevel.name hends).bind fun expression later _ hbehind ↦
        (alike_afterExpression expression fun last hle ↦ hmore last (by omega)).passes hbehind
    refine Passes.congr hrest (elements_expression ?_) (Nat.le_refl index)
    exact opens_of_endsInName hends (by simpa using hassignment)

include hsound

theorem alike_elements (hroom : fork.Room rounds rounds') (index : Nat) :
    Alike fork index (Reader.elements level rounds) (Reader.elements level' rounds') := by
  refine Alike.loop (fun rounds _ ↦ Reader.elements level rounds)
    (fun rounds _ ↦ Reader.elements level' rounds) (fun index _ ↦ (alike_closingBrace index).passes) ?_
    rounds rounds' index () (Nat.le_add_right_of_le hroom.one) (Nat.le_add_right_of_le hroom.other)
  intro rounds rounds' index _ ih
  by_cases hends : fork.EndsInName index
  · exact (passes_elements hlevel (fun later ↦ ih later ()) hends).alike
  refine .get fun input' hhead _ ↦ .get fun input'' hhead' _ ↦ ?_
  unfold Reader.nextIs Reader.atEnd
  rw [hhead, hhead']
  split
  · exact alike_closingBrace index
  refine .get fun input' hhead _ ↦ ?_
  rw [Reader.declKeyword?_congr hhead]
  cases hkeyword : Reader.declKeyword? (fork.here index) with
  | some keyword =>
    refine .bind (alike_declaration hlevel index keyword) fun first later _ hread ↦ ?_
    have hlater := Fork.lt_of_ok (yields_declaration hsound hkeyword)
      (fun _ _ hended ↦ (IsStatement.ended hended.1).ne_nil) hread
    exact alike_prepend first (ih later () hlater)
  | none =>
    refine .get fun input' hhead hsecond ↦ ?_
    rw [startsAssignment_congr hhead hsecond hends]
    split
    · refine .bind (alike_assignment hlevel index) fun first later _ hread ↦ ?_
      have hlater := Fork.lt_of_ok (yields_assignment hsound _)
        (fun _ _ hended ↦ (IsStatement.ended hended.1).ne_nil) hread
      exact alike_prepend first (ih later () hlater)
    · refine .bind (hlevel.expression index) fun expression later _ hread ↦ ?_
      have hlater := Fork.lt_of_ok (hsound.yields_expression _)
        (fun _ _ hexpression ↦ hexpression.ne_nil) hread
      exact alike_afterExpression expression fun last hle ↦ ih last () (by omega)

theorem alike_block (hroom : fork.Room rounds rounds') (index : Nat) :
    Alike fork index (Reader.block rounds level) (Reader.block rounds' level') :=
  .expect fun _ ↦ .bind (alike_elements hlevel hsound hroom _) fun _ _ _ _ ↦ .pure _

end

/-! ### Conditionals -/

/-- The branches of a conditional after the first and its last block, put together. -/
def Reader.alternatives (rounds : Nat) (level : ReaderLevel) (more : Nat)
    (make : List Tree → Tree → Tree) : Reader Tree := do
  let branches ← elseBranches rounds level more
  let otherwise ← elseBlock rounds level
  return make branches otherwise

/-- What follows the words of a branch: the branch, and the alternatives behind it. -/
def Reader.branchOnward (rounds : Nat) (level : ReaderLevel) (more : Nat)
    (make : List Tree → Tree → Tree) : Reader Tree := do
  let condition ← level.expression
  let body ← block rounds level
  alternatives rounds level more fun branches otherwise ↦
    make (.branch condition body :: branches) otherwise

section

variable {rounds more : Nat} {level : ReaderLevel} {make : List Tree → Tree → Tree}

theorem alternatives_branch {elseWord ifWord : Token} {rest : List Token}
    (helse : elseWord.isKeyword "else" = true) (hif : ifWord.isKeyword "if" = true) :
    Reader.alternatives rounds level (more + 1) make (elseWord :: ifWord :: rest) =
      Reader.branchOnward rounds level more make rest := by
  have hbranch := (elseBranches_branch helse hif more).trans
    (Run.bind_of_ok Reader.skip_cons : _ = (do
      let condition ← level.expression
      let body ← Reader.block rounds level
      let branches ← Reader.elseBranches rounds level more
      return Tree.branch condition body :: branches) rest)
  refine (Run.bind_congr hbranch).trans ?_
  simp only [bind_assoc, pure_bind, Reader.branchOnward, Reader.alternatives]

theorem alternatives_of_not {input : List Token}
    (hnot : (Reader.nextIsKeyword "else" input && Reader.secondIsKeyword "if" input) = false) :
    Reader.alternatives rounds level more make input = (do
      let otherwise ← Reader.elseBlock rounds level
      return make [] otherwise) input :=
  Run.bind_of_ok (elseBranches_of_not hnot more)

end

theorem elseIf_here {fork : Fork} {index : Nat}
    (hwords : (Reader.nextIsKeyword "else" (fork.here index) &&
      Reader.secondIsKeyword "if" (fork.here index)) = true) :
    ∃ elseWord ifWord, (fork.here index).head? = some elseWord ∧
      (fork.here (index + 1)).head? = some ifWord ∧ elseWord.isKeyword "else" = true ∧
        ifWord.isKeyword "if" = true := by
  obtain ⟨helse, hif⟩ := Bool.and_eq_true_iff.mp hwords
  obtain ⟨elseWord, rest, hhere, helse⟩ := Reader.exists_of_nextIsKeyword helse
  rw [hhere] at hif
  obtain ⟨ifWord, others, rfl, hif⟩ := Reader.exists_of_secondIsKeyword hif
  refine ⟨elseWord, ifWord, by rw [hhere, List.head?_cons], ?_, helse, hif⟩
  rw [← Fork.tail_here, hhere, List.tail_cons, List.head?_cons]

section

variable {fork : Fork} {rounds rounds' levels : Nat} {level level' : ReaderLevel}
  (hlevel : AlikeLevel fork level level') (hsound : SoundLevel level levels)
  (hroom : fork.Room rounds rounds')

include hlevel hsound hroom

theorem alike_elseBlock (index : Nat) :
    Alike fork index (Reader.elseBlock rounds level) (Reader.elseBlock rounds' level') := by
  refine .get fun input' hhead _ ↦ ?_
  unfold Reader.nextIsKeyword
  rw [hhead]
  split
  · exact .skip (alike_block hlevel hsound hroom _)
  · exact .pure _

theorem alike_lastBlock (make : List Tree → Tree → Tree) (index : Nat) :
    Alike fork index
      (do let otherwise ← Reader.elseBlock rounds level; return make [] otherwise)
      (do let otherwise ← Reader.elseBlock rounds' level'; return make [] otherwise) :=
  .bind (alike_elseBlock hlevel hsound hroom index) fun _ _ _ _ ↦ .pure _

/-- An `else` that is the last shared token is taken, by a branch or by the last block. -/
theorem passes_lastBlock {index : Nat} {word : Token}
    (hhere : (fork.here index).head? = some word) (hword : word.isKeyword "else" = true)
    (hlast : fork.horizon = index + 1) (make : List Tree → Tree → Tree) :
    Passes fork index (do let otherwise ← Reader.elseBlock rounds level; return make [] otherwise) := by
  have hblock := alike_block hlevel hsound hroom (index + 1)
  have hpasses : Passes fork index (Reader.elseBlock rounds level) := by
    refine Passes.congr (hblock.passes (Nat.le_of_eq hlast)) ?_ (Nat.le_succ index)
    rw [Fork.here_cons hhere, Reader.elseBlock, Run.get_bind, if_pos (by simpa using hword)]
    exact Run.bind_of_ok Reader.skip_cons
  exact hpasses.bind fun otherwise later _ hbehind ↦ (Alike.pure (make [] otherwise)).passes hbehind

theorem alike_alternatives (index : Nat) (make : List Tree → Tree → Tree) :
    Alike fork index (Reader.alternatives rounds level rounds make)
      (Reader.alternatives rounds' level' rounds' make) := by
  refine Alike.loop (Reader.alternatives rounds level) (Reader.alternatives rounds' level')
    (fun index make ↦ ?_) ?_ rounds rounds' index make (Nat.le_add_right_of_le hroom.one)
    (Nat.le_add_right_of_le hroom.other)
  · exact (alike_lastBlock hlevel hsound hroom make index).passes
  intro more more' index make ih
  by_cases hwords : (Reader.nextIsKeyword "else" (fork.here index) &&
      Reader.secondIsKeyword "if" (fork.here index)) = true
  · obtain ⟨elseWord, ifWord, helse, hif, helseWord, hifWord⟩ := elseIf_here hwords
    have hbranch : Alike fork (index + 2) (Reader.branchOnward rounds level more make)
        (Reader.branchOnward rounds' level' more' make) := by
      refine .bind (hlevel.expression _) fun condition later hcondition _ ↦ ?_
      refine .bind (alike_block hlevel hsound hroom later) fun body last hbody _ ↦ ?_
      exact ih last _ (by omega)
    have hrun : Reader.alternatives rounds level (more + 1) make (fork.here index) =
        Reader.branchOnward rounds level more make (fork.here (index + 2)) := by
      rw [Fork.here_cons helse, Fork.here_cons hif]
      exact alternatives_branch helseWord hifWord
    by_cases hlast : index + 1 = fork.horizon
    · exact (Passes.congr (hbranch.passes (by omega)) hrun (by omega)).alike
    · refine .congr hbranch hrun (fun hshared ↦ ?_) (by omega)
      rw [Fork.there_cons helse hshared, Fork.there_cons hif (by omega)]
      exact alternatives_branch helseWord hifWord
  · have hnot := Bool.eq_false_iff.mpr hwords
    by_cases hends : ∃ word, (fork.here index).head? = some word ∧ word.isKeyword "else" = true ∧
        index + 1 = fork.horizon
    · obtain ⟨word, hhere, hword, hlast⟩ := hends
      have hpasses := passes_lastBlock hlevel hsound hroom hhere hword hlast.symm make
      exact (Passes.congr hpasses (alternatives_of_not hnot) (Nat.le_refl index)).alike
    · refine .congr (alike_lastBlock hlevel hsound hroom make index)
        (alternatives_of_not hnot) (fun hshared ↦ alternatives_of_not ?_) (Nat.le_refl index)
      refine (any_two_congr (Fork.head?_there hshared) ?_ fun word hhere hword hlast ↦ ?_).trans hnot
      · exact fun hmore ↦ Fork.there_getElem? (by omega)
      · exact hends ⟨word, hhere, hword, hlast⟩

theorem alike_conditional {index : Nat} {word : Token} (hhere : (fork.here index).head? = some word)
    (hword : word.isKeyword "if" = true) :
    Alike fork index (Reader.conditional rounds level) (Reader.conditional rounds' level') := by
  have hbehind : Alike fork (index + 1)
      (do
        let condition ← level.expression
        let body ← Reader.block rounds level
        Reader.alternatives rounds level rounds (.conditional condition body))
      (do
        let condition ← level'.expression
        let body ← Reader.block rounds' level'
        Reader.alternatives rounds' level' rounds' (.conditional condition body)) := by
    refine .bind (hlevel.expression _) fun condition later _ _ ↦ ?_
    refine .bind (alike_block hlevel hsound hroom later) fun body last _ _ ↦ ?_
    exact alike_alternatives hlevel hsound hroom last _
  refine .congr hbehind ?_ (fun hshared ↦ ?_) (Nat.le_succ index)
  · rw [Fork.here_cons hhere]
    exact Run.bind_of_ok (Reader.expectKeyword_cons hword)
  · rw [Fork.there_cons hhere hshared]
    exact Run.bind_of_ok (Reader.expectKeyword_cons hword)

/-! ### The knot -/

theorem alike_expressionWith (index : Nat) :
    Alike fork index (Reader.expressionWith rounds level) (Reader.expressionWith rounds' level') := by
  refine .get fun input' hhead _ ↦ ?_
  rw [Reader.nextIs, Reader.nextIs, hhead]
  split
  · exact alike_block hlevel hsound hroom index
  refine .get fun input' hhead _ ↦ ?_
  rw [Reader.nextIsKeyword, Reader.nextIsKeyword, hhead]
  split
  · next hif =>
    obtain ⟨word, rest, hhere, hword⟩ := Reader.exists_of_nextIsKeyword hif
    exact alike_conditional hlevel hsound hroom (by rw [hhere, List.head?_cons]) hword
  · exact alike_comparison hroom hlevel index

/-! ### Programs -/

theorem alike_statements (index : Nat) :
    Alike fork index (Reader.statements level rounds) (Reader.statements level' rounds') := by
  refine Alike.loop (fun rounds _ ↦ Reader.statements level rounds)
    (fun rounds _ ↦ Reader.statements level' rounds) (fun _ _ ↦ (Alike.pure []).passes) ?_
    rounds rounds' index () (Nat.le_add_right_of_le hroom.one) (Nat.le_add_right_of_le hroom.other)
  intro rounds rounds' index _ ih
  refine .get fun input' hhead _ ↦ ?_
  rw [Reader.atEnd, Reader.atEnd, hhead]
  split
  · exact .pure []
  · refine .bind (alike_statement hlevel index) fun first later _ hread ↦ ?_
    have hlater := Fork.lt_of_ok (yields_statement hsound _) (fun _ _ hfirst ↦ hfirst.1.ne_nil) hread
    exact .bind (ih later () hlater) fun _ _ _ _ ↦ .pure _

end

theorem alike_level {fork : Fork} {rounds rounds' : Nat} (hroom : fork.Room rounds rounds')
    (levels : Nat) :
    ∀ levels', levels ≤ levels' →
      AlikeLevel fork (Reader.level rounds levels) (Reader.level rounds' levels') := by
  induction levels with
  | zero =>
    refine fun levels' hle ↦ ⟨fun index ↦ alike_type hroom 0 levels' index hle,
      fun index ↦ .tooDeep, fun _ ending rest hending ↦ ?_⟩
    cases hending
  | succ levels ih =>
    intro levels' hle
    obtain ⟨levels', rfl⟩ : ∃ less, levels' = less + 1 := ⟨levels' - 1, by omega⟩
    have hbelow := ih levels' (Nat.le_of_succ_le_succ hle)
    have hsound := sound_level rounds levels
    exact ⟨fun index ↦ alike_type hroom _ _ index hle,
      alike_expressionWith hbelow hsound hroom,
      passes_expressionWith hroom hbelow⟩

/-! ### The first error -/

theorem SyntaxError.ne_nesting_of_code? {error : SyntaxError}
    (hcode : error.diagnostic.code? ≠ some "P006") (limit : Nat) : error.cause ≠ .nesting limit := by
  intro hcause
  apply hcode
  unfold diagnostic
  rw [hcause]

theorem alike_program (fork : Fork) {levels levels' : Nat} (hle : levels ≤ levels') :
    Alike fork 0
      (Reader.program (fork.shared ++ fork.one).length
        (Reader.level (fork.shared ++ fork.one).length levels))
      (Reader.program (fork.shared ++ fork.other).length
        (Reader.level (fork.shared ++ fork.other).length levels')) := by
  have hroom : fork.Room (fork.shared ++ fork.one).length (fork.shared ++ fork.other).length :=
    ⟨Nat.le_refl _, Nat.le_refl _⟩
  have hlevel := alike_level hroom levels levels' hle
  exact .bind (alike_statements hlevel (sound_level _ levels) hroom 0) fun _ _ _ _ ↦ .pure _

/-- With enough levels to open, every program is read. -/
theorem program_of_isProgram {tree : Tree} {tokens : List Token} (h : IsProgram tree tokens)
    {levels : Nat} (hlevels : tree.nesting ≤ levels) :
    Reader.program tokens.length (Reader.level tokens.length levels) tokens = .ok tree [] := by
  cases h with
  | program hstatements =>
    have hroom : (tokens ++ []).length ≤ tokens.length := by simp
    have hmeets := meets_statements (complete_level tokens.length levels) hstatements rfl
      (Nat.le_refl tokens.length) hroom
    have hread := hmeets.within hlevels
    rw [List.append_nil] at hread
    exact Run.bind_of_ok hread

/-- Tokens at which a program cannot go on, together with the token there, begin no program. -/
theorem not_viable_of_misfit {taken others : List Token} {token : Token} {cause : SyntaxCause}
    {levels : Nat} (hlimit : ∀ limit, cause ≠ .nesting limit)
    (hread : Reader.program (taken ++ token :: others).length
      (Reader.level (taken ++ token :: others).length levels) (taken ++ token :: others) =
        .error (.misfit cause) (token :: others)) :
    ¬ Viable IsProgram (taken ++ [token]) := by
  rintro ⟨more, program, hprogram⟩
  let fork : Fork := ⟨taken ++ [token], others, more⟩
  have hone : fork.shared ++ fork.one = taken ++ token :: others := by simp [fork]
  have halike := alike_program fork (Nat.le_add_right levels program.nesting)
  have hending : (Reader.program (fork.shared ++ fork.one).length
      (Reader.level (fork.shared ++ fork.one).length levels)).ending? (fork.here 0) =
        some (.error cause, token :: others) := by
    rw [Fork.here, List.drop_zero, hone, Reader.ending?, hread]
    cases cause with
    | nesting limit => exact absurd rfl (hlimit limit)
    | expected what => rfl
    | reported message => rfl
  obtain ⟨stop, -, hstop, hsame⟩ := halike _ _ hending
  have hbefore : stop < fork.horizon := by
    have hlength := congrArg List.length hstop
    rw [Fork.length_here, hone, List.length_append, List.length_cons] at hlength
    simp only [Fork.horizon, fork, List.length_append, List.length_singleton]
    omega
  -- on the other input, which is a program, reading would have to stop as well
  have hother := Reader.ending?_of_ok (program_of_isProgram hprogram
    (Nat.le_add_left program.nesting levels))
  rw [show fork.there 0 = taken ++ [token] ++ more from rfl] at hsame
  cases (hsame hbefore).symm.trans hother

/-- A syntax error, unless it is about the limit of nesting, names the first token with which the
tokens stop being the beginning of a program: those before it can be continued to a program, and with
it they cannot. -/
theorem parse_error_first {tokens : List Token} {error : SyntaxError}
    (hparse : parse tokens = .error (.syntaxError error))
    (hcode : error.diagnostic.code? ≠ some "P006") :
    ∃ index : Nat, error.position = index ∧ index ≤ tokens.length ∧ error.token? = tokens[index]? ∧
      (∃ more program, IsProgram program (tokens.take index ++ more)) ∧
      (index < tokens.length →
        ∀ more program, ¬ IsProgram program (tokens.take (index + 1) ++ more)) := by
  have hlimit := SyntaxError.ne_nesting_of_code? hcode
  rw [parse_eq_predict, predict] at hparse
  split at hparse
  · cases hparse
  next obstacle rest hread =>
  cases obstacle with
  | unknownDataType lexeme => cases hparse
  | misfit cause =>
    cases hparse
    obtain ⟨taken, rfl, hviable⟩ := (pursues_program (viable_level _ _) (sound_level _ _) _ _).misfit
      cause rest hread hlimit
    have hposition : (taken ++ rest).length - rest.length = taken.length := by simp
    refine ⟨taken.length, by rw [hposition], by simp, ?_, ?_, fun hlt more program hprogram ↦ ?_⟩
    · rw [List.getElem?_append_right (Nat.le_refl _), Nat.sub_self, List.head?_eq_getElem?]
    · rw [List.take_left']
      exact hviable
      rfl
    · cases rest with
      | nil => simp at hlt
      | cons token others =>
        refine not_viable_of_misfit hlimit hread ⟨more, program, ?_⟩
        have htake : (taken ++ token :: others).take (taken.length + 1) = taken ++ [token] := by
          rw [List.take_length_add_append, List.take_succ_cons, List.take_zero]
        rwa [htake] at hprogram

/-- In a block with two names, one after the other, the second name is the first wrong token. -/
theorem parse_error_first_in_block :
    parse [⟨.leftCurly, some "\x7b"⟩, ⟨.identifier, some "x"⟩, ⟨.identifier, some "y"⟩,
        ⟨.rightCurly, some "\x7d"⟩, Token.endOfStream] =
      .error (.syntaxError ⟨.expected (.token .semicolon), 2, some ⟨.identifier, some "y"⟩⟩) ∧
    (∃ more program, IsProgram program
      ([⟨.leftCurly, some "\x7b"⟩, ⟨.identifier, some "x"⟩] ++ more)) ∧
    ∀ more program, ¬ IsProgram program
      ([⟨.leftCurly, some "\x7b"⟩, ⟨.identifier, some "x"⟩, ⟨.identifier, some "y"⟩] ++ more) := by
  have hparse : parse [⟨.leftCurly, some "\x7b"⟩, ⟨.identifier, some "x"⟩, ⟨.identifier, some "y"⟩,
      ⟨.rightCurly, some "\x7d"⟩, Token.endOfStream] =
        .error (.syntaxError ⟨.expected (.token .semicolon), 2, some ⟨.identifier, some "y"⟩⟩) := by
    rw [parse_eq_predict]
    rfl
  obtain ⟨index, hindex, -, -, hviable, hfirst⟩ := parse_error_first hparse (by decide)
  obtain rfl : index = 2 := Int.ofNat.inj hindex.symm
  exact ⟨hparse, hviable, hfirst (by decide)⟩

end LetLang
