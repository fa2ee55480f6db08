import LetLang.Proofs.Scope.Declarations

/-!
# Visits leave a reducer as it was

A reducer is asked to visit one tree after the other, and what it knows must not depend on what went
wrong in between. A visit of an expression leaves the reducer as it was, frames and expected type,
whether it returns or fails, however deep the failure is. A visit of a statement changes it only
when the statement is a declaration that succeeds: one binding is put behind those of its name in
the innermost frame, which is opened if there is none (`Visited`, `Reducer.visit_restores`).

The reduction hands the expected type down as an argument, where nothing can be left behind. Beside
it stands a walk that has the expected type in its state, and replaces it around a part of its work
(`Walk.expecting`) as it opens a scope around a block (`Walk.inScope`). The two do the same at every
tree (`Walk.enacts_reduce`): what the walk replaces it puts back, on every way out.
-/

set_option autoImplicit false

namespace LetLang

/-! ### A walk with the expected type in its state -/

/-- What a walk changes: the type that is expected at present, the table and the trace. -/
structure Walker where
  expected? : Option Tree
  state : ReductionState

/-- A part of a walk. -/
abbrev Walk (α : Type) : Type := EStateM ReductionFailure Walker α

namespace Walk

variable {α : Type}

/-- A step that does not concern the expected type. -/
def step (reduction : Reduction α) : Walk α := fun walker =>
  match reduction walker.state with
  | .ok value after => .ok value { walker with state := after }
  | .error failure after => .error failure { walker with state := after }

theorem step_of_ok {reduction : Reduction α} {walker : Walker} {value : α} {after : ReductionState}
    (hrun : reduction walker.state = .ok value after) :
    step reduction walker = .ok value { walker with state := after } := by
  rw [step, hrun]

theorem step_of_error {reduction : Reduction α} {walker : Walker} {failure : ReductionFailure}
    {after : ReductionState} (hrun : reduction walker.state = .error failure after) :
    step reduction walker = .error failure { walker with state := after } := by
  rw [step, hrun]

/-- Carries out a part of a walk while a type is expected. What was expected before is expected
again afterwards, also when the part fails. -/
def expecting (expected? : Option Tree) (body : Walk α) : Walk α := fun walker =>
  match body { walker with expected? := expected? } with
  | .ok value after => .ok value { after with expected? := walker.expected? }
  | .error failure after => .error failure { after with expected? := walker.expected? }

/-- Carries out a part of a walk in a scope of its own, which is closed also when the part fails. -/
def inScope (body : Walk α) : Walk α := fun walker =>
  match body { walker with state := walker.state.enter } with
  | .ok value after => .ok value { after with state := after.state.leave }
  | .error failure after => .error failure { after with state := after.state.leave }

/-- Visits a part of a tree that may be left out. -/
def ifPresent (body : Tree → Walk Tree) (tree : Tree) : Walk Tree :=
  if tree.isPresent then body tree else return .absent

/-- The walk over a tree of at most the given number of levels. -/
def reduce (strict : Bool) : Nat → Tree → Walk Tree
  | 0, _ => throw (.semantic .tooDeep)
  | levels + 1, tree =>
    match tree with
    | .absent => throw .absentNode
    | .program statements => do
      return .program (← statements.mapM (reduce strict levels))
    | .declaration keyword name type value => do
      let value ← expecting (some type) (reduce strict levels value)
      step (modify (·.declare name ⟨keyword.isMutable, type, value⟩))
      return .declaration keyword name type value
    | .assignment name value => do
      let binding? := (← get).state.table.lookup? name
      let value ← expecting (binding?.map Binding.type) (reduce strict levels value)
      return .assignment name value
    | .statement expression =>
      expecting none do
        return .statement (← reduce strict levels expression)
    | .arith op left right => do
      let left ← reduce strict levels left
      let right ← reduce strict levels right
      step (Reduction.arith strict op left right)
    | .comparison left op right =>
      expecting none do
        let left ← reduce strict levels left
        let right ← reduce strict levels right
        return .comparison left op right
    | .call name arguments => do
      let arguments ← expecting none (arguments.mapM (reduce strict levels))
      return .call name arguments
    | .block statements result =>
      inScope do
        let statements ← statements.mapM (reduce strict levels)
        let result ← ifPresent (reduce strict levels) result
        return .block statements result
    | .branch condition body => do
      let condition ← expecting none (reduce strict levels condition)
      let body ← reduce strict levels body
      return .branch condition body
    | .conditional condition body branches otherwise => do
      let condition ← expecting none (reduce strict levels condition)
      let body ← reduce strict levels body
      let branches ← branches.mapM (reduce strict levels)
      let otherwise ← ifPresent (reduce strict levels) otherwise
      return .conditional condition body branches otherwise
    | .negation factor => do
      let factor ← reduce strict levels factor
      step (Reduction.negation strict factor)
    | .parenthesized expression => do
      return Reduction.parenthesized (← reduce strict levels expression)
    | .literal lexeme => do
      let expected? := (← get).expected?
      step (Reduction.literal expected? lexeme)
    | .identifier name => return .identifier name
    | .integer value => return .integer value
    | .float value => return .float value
    | .basicType name => return .basicType name
    | .functionType parameters result => return .functionType parameters result
    | .parameter name type => return .parameter name type

end Walk

/-- The reducer that a walker is at the end of a visit, in the mode of the visit. -/
def Walker.reducer (strict : Bool) (walker : Walker) : Reducer :=
  ⟨strict, walker.state.table, walker.expected?⟩

/-- The visit of a tree as a walk that starts from what the reducer expects. -/
def Reducer.visitInPlace (reducer : Reducer) (tree : Tree) : ReductionOutcome :=
  let walk := Walk.reduce reducer.strict Reduction.depthLimit tree
  match walk ⟨reducer.expected?, ⟨reducer.table, []⟩⟩ with
  | .ok reduced after => ⟨.ok reduced, after.reducer reducer.strict, after.state.trace⟩
  | .error failure after => ⟨.error failure, after.reducer reducer.strict, after.state.trace⟩

/-! ### The walk does what the reduction does -/

/-- From every start, the walk does what the reduction does where the walker's type is expected, and
in the end the walker expects that type. -/
def Enacts {α : Type} (walk : Walk α) (reduction : Option Tree → Reduction α) : Prop :=
  ∀ walker, walk walker = Walk.step (reduction walker.expected?) walker

namespace Enacts

variable {α β : Type} {walk : Walk α} {reduction : Option Tree → Reduction α}

theorem pure (value : α) : Enacts (Pure.pure value) fun _ => Pure.pure value := fun _ ↦ rfl

theorem throw (failure : ReductionFailure) :
    Enacts (throwThe ReductionFailure failure : Walk α) fun _ =>
      throwThe ReductionFailure failure :=
  fun _ ↦ rfl

theorem step (reduction : Reduction α) : Enacts (Walk.step reduction) fun _ => reduction :=
  fun _ ↦ rfl

theorem bind {next : α → Walk β} {nextReduction : Option Tree → α → Reduction β}
    (hfirst : Enacts walk reduction)
    (hnext : ∀ value, Enacts (next value) fun expected? => nextReduction expected? value) :
    Enacts (walk >>= next) fun expected? => reduction expected? >>= nextReduction expected? := by
  intro walker
  cases hrun : reduction walker.expected? walker.state with
  | ok value after =>
    have hwalk := (hfirst walker).trans (Walk.step_of_ok hrun)
    rw [Run.bind_of_ok hwalk, hnext value, Walk.step, Walk.step]
    dsimp only
    rw [Run.bind_of_ok hrun]
  | error failure after =>
    have hwalk := (hfirst walker).trans (Walk.step_of_error hrun)
    rw [Run.bind_of_error hwalk]
    exact (Walk.step_of_error (Run.bind_of_error hrun)).symm

theorem mapM {body : Tree → Walk Tree} {reduce : Option Tree → Tree → Reduction Tree}
    {trees : List Tree}
    (hbody : ∀ tree, Enacts (body tree) fun expected? => reduce expected? tree) :
    Enacts (trees.mapM body) fun expected? => trees.mapM (reduce expected?) := by
  induction trees with
  | nil => exact pure []
  | cons tree trees ih =>
    simp only [List.mapM_cons]
    exact bind (hbody tree) fun first ↦ bind ih fun rest ↦ pure (first :: rest)

theorem ifPresent {body : Tree → Walk Tree} {reduce : Option Tree → Tree → Reduction Tree}
    {tree : Tree} (hbody : Enacts (body tree) fun expected? => reduce expected? tree) :
    Enacts (Walk.ifPresent body tree) fun expected? =>
      Reduction.ifPresent (reduce expected?) tree := by
  unfold Walk.ifPresent Reduction.ifPresent
  split
  · exact hbody
  · exact pure Tree.absent

/-- Whatever the walker expects, the part is carried out where the given type is expected, and the
walker expects what it did. -/
theorem expecting (expected? : Option Tree) (hbody : Enacts walk reduction) :
    Enacts (Walk.expecting expected? walk) fun _ => reduction expected? := by
  intro walker
  have hwalk := hbody { walker with expected? := expected? }
  cases hrun : reduction expected? walker.state with
  | ok value after =>
    rw [Walk.expecting, hwalk.trans (Walk.step_of_ok hrun)]
    exact (Walk.step_of_ok hrun).symm
  | error failure after =>
    rw [Walk.expecting, hwalk.trans (Walk.step_of_error hrun)]
    exact (Walk.step_of_error hrun).symm

theorem inScope (hbody : Enacts walk reduction) :
    Enacts (Walk.inScope walk) fun expected? => Reduction.inScope (reduction expected?) := by
  intro walker
  have hwalk := hbody { walker with state := walker.state.enter }
  cases hrun : reduction walker.expected? walker.state.enter with
  | ok value after =>
    have hscope : Reduction.inScope (reduction walker.expected?) walker.state =
        .ok value after.leave := by rw [Reduction.inScope, hrun]
    rw [Walk.inScope, hwalk.trans (Walk.step_of_ok hrun)]
    exact (Walk.step_of_ok hscope).symm
  | error failure after =>
    have hscope : Reduction.inScope (reduction walker.expected?) walker.state =
        .error failure after.leave := by rw [Reduction.inScope, hrun]
    rw [Walk.inScope, hwalk.trans (Walk.step_of_error hrun)]
    exact (Walk.step_of_error hscope).symm

end Enacts

/-- The walk puts back the expected type at every node that replaces it. -/
theorem Walk.enacts_reduce (strict : Bool) (levels : Nat) (tree : Tree) :
    Enacts (Walk.reduce strict levels tree) fun expected? =>
      Reduction.reduce strict levels expected? tree := by
  induction levels generalizing tree with
  | zero => exact .throw _
  | succ levels ih =>
    cases tree with
    | absent => exact .throw _
    | program statements => exact .bind (.mapM ih) fun statements ↦ .pure _
    | declaration keyword name type value =>
      exact .bind (.expecting (some type) (ih value)) fun value ↦ .bind (.step _) fun _ ↦ .pure _
    | assignment name value =>
      intro walker
      let expected? := (walker.state.table.lookup? name).map Binding.type
      exact Enacts.bind (.expecting expected? (ih value)) (fun value ↦ .pure _) walker
    | statement expression =>
      exact .expecting none (.bind (ih expression) fun expression ↦ .pure _)
    | arith op left right =>
      exact .bind (ih left) fun left ↦ .bind (ih right) fun right ↦ .step _
    | comparison left op right =>
      exact .expecting none (.bind (ih left) fun left ↦ .bind (ih right) fun right ↦ .pure _)
    | call name arguments =>
      exact .bind (.expecting none (.mapM ih)) fun arguments ↦ .pure _
    | block statements result =>
      exact .inScope (.bind (.mapM ih) fun statements ↦
        .bind (.ifPresent (ih result)) fun result ↦ .pure _)
    | branch condition body =>
      exact .bind (.expecting none (ih condition)) fun condition ↦
        .bind (ih body) fun body ↦ .pure _
    | conditional condition body branches otherwise =>
      exact .bind (.expecting none (ih condition)) fun condition ↦
        .bind (ih body) fun body ↦ .bind (.mapM ih) fun branches ↦
        .bind (.ifPresent (ih otherwise)) fun otherwise ↦ .pure _
    | negation factor => exact .bind (ih factor) fun factor ↦ .step _
    | parenthesized expression => exact .bind (ih expression) fun inner ↦ .pure _
    | literal lexeme => exact fun walker ↦ rfl
    | identifier | integer | float | basicType | functionType | parameter => exact .pure _

theorem Reducer.visitInPlace_eq_visit (reducer : Reducer) (tree : Tree) :
    reducer.visitInPlace tree = reducer.visit tree := by
  unfold Reducer.visitInPlace Reducer.visit
  dsimp only
  rw [Walk.enacts_reduce, Walk.step]
  dsimp only
  cases Reduction.reduce reducer.strict Reduction.depthLimit reducer.expected? tree
      ⟨reducer.table, []⟩ with
  | ok reduced after => rfl
  | error failure after => rfl

/-! ### What a statement does to a reducer -/

/-- The second frame has one binding more than the first, of the given name: behind those that the
name has, or at the end if it has none. -/
inductive Frame.Extended (name : Lexeme) (binding : Binding) : Frame → Frame → Prop
  | behind (front rest : Frame) (bindings : List Binding) (hfront : name ∉ front.map Prod.fst) :
    Extended name binding (front ++ (name, bindings) :: rest)
      (front ++ (name, bindings ++ [binding]) :: rest)
  | anew (frame : Frame) (hframe : name ∉ frame.map Prod.fst) :
    Extended name binding frame (frame ++ [(name, [binding])])

/-- The second table has one binding more than the first, in the innermost frame, or in a frame of
its own if there was none. -/
inductive Table.Extended (name : Lexeme) (binding : Binding) : Table → Table → Prop
  | innermost {frame extended : Frame} {outer : List Frame}
    (hframe : Frame.Extended name binding frame extended) :
    Extended name binding ⟨frame :: outer⟩ ⟨extended :: outer⟩
  | opened : Extended name binding ⟨[]⟩ ⟨[[(name, [binding])]]⟩

/-- What a visit of a statement may come to: it fails or the statement declares nothing, and the
reducer is as it was, or a declaration succeeds, and its table has one binding more. -/
inductive Visited (reducer : Reducer) : Tree → Except ReductionFailure Tree → Reducer → Prop
  | failed (statement : Tree) (failure : ReductionFailure) :
    Visited reducer statement (.error failure) reducer
  | undeclared {statement : Tree} (reduced : Tree) (hnone : statement.declared? = none) :
    Visited reducer statement (.ok reduced) reducer
  | declared {keyword : DeclKeyword} {name : Lexeme} {type value reduced : Tree} {table : Table}
    (htable : Table.Extended name ⟨keyword.isMutable, type, reduced⟩ reducer.table table) :
    Visited reducer (.declaration keyword name type value)
      (.ok (.declaration keyword name type reduced)) { reducer with table := table }

theorem Frame.extended_add (name : Lexeme) (binding : Binding) (frame : Frame) :
    Frame.Extended name binding frame (Frame.add name binding frame) := by
  induction frame with
  | nil => exact .anew [] List.not_mem_nil
  | cons entry rest ih =>
    obtain ⟨other, bindings⟩ := entry
    rw [Frame.add]
    by_cases hother : other = name
    · subst hother
      rw [if_pos rfl]
      exact .behind [] rest bindings List.not_mem_nil
    · have hcons : ∀ front : Frame, name ∉ front.map Prod.fst →
          name ∉ ((other, bindings) :: front).map Prod.fst := by
        intro front hfront
        exact List.not_mem_cons_of_ne_of_not_mem (Ne.symm hother) hfront
      rw [if_neg hother]
      generalize Frame.add name binding rest = extended at ih
      cases ih with
      | behind front rest found hfront =>
        exact .behind ((other, bindings) :: front) rest found (hcons front hfront)
      | anew _ hframe => exact .anew ((other, bindings) :: rest) (hcons rest hframe)

theorem Table.extended_declare (name : Lexeme) (binding : Binding) (table : Table) :
    Table.Extended name binding table (table.declare name binding) := by
  obtain ⟨frames⟩ := table
  cases frames with
  | nil => exact .opened
  | cons frame outer => exact .innermost (Frame.extended_add name binding frame)

/-- A declaration is reduced to a declaration of the same name, and no other statement to one. -/
theorem reduce_declaration_or_none {strict : Bool} {levels : Nat} {expected? : Option Tree}
    {statement reduced : Tree} {before after : ReductionState}
    (hplaced : statement.placedStatement = true)
    (hrun : Reduction.reduce strict levels expected? statement before = .ok reduced after) :
    (∃ keyword name type value reducedValue, statement = .declaration keyword name type value ∧
      reduced = .declaration keyword name type reducedValue) ∨
    statement.declared? = none ∧ reduced.declared? = none := by
  cases levels with
  | zero => cases hrun
  | succ levels =>
    cases statement with
    | declaration keyword name type value =>
      obtain ⟨reducedValue, middle, -, hrest⟩ := Run.exists_of_bind_eq_ok hrun
      cases hrest
      exact .inl ⟨keyword, name, type, value, reducedValue, rfl, rfl⟩
    | assignment name value =>
      obtain ⟨state, middle, -, hrun⟩ := Run.exists_of_bind_eq_ok hrun
      obtain ⟨reducedValue, last, -, hrest⟩ := Run.exists_of_bind_eq_ok hrun
      cases hrest
      exact .inr ⟨rfl, rfl⟩
    | statement expression =>
      obtain ⟨reducedExpression, middle, -, hrest⟩ := Run.exists_of_bind_eq_ok hrun
      cases hrest
      exact .inr ⟨rfl, rfl⟩
    | _ => cases hplaced

namespace Reducer

variable {reducer : Reducer} {tree : Tree}

theorem reducer_visit_of_placedExpression (hplaced : tree.placedExpression = true) :
    (reducer.visit tree).reducer = reducer := by
  have hleaves := (orderly_reduce reducer.strict Reduction.depthLimit).expression
    reducer.expected? hplaced
  cases hrun : Reduction.reduce reducer.strict Reduction.depthLimit reducer.expected? tree
      ⟨reducer.table, []⟩ with
  | ok reduced after =>
    have htable : after.table = reducer.table := hleaves.of_ok hrun
    rw [reducer.visit_of_ok hrun, htable]
  | error failure after =>
    have htable : after.table = reducer.table := hleaves.of_error hrun
    rw [reducer.visit_of_error hrun, htable]

theorem visited_of_placedStatement (hplaced : tree.placedStatement = true) :
    Visited reducer tree (reducer.visit tree).result (reducer.visit tree).reducer := by
  have hrecords := (orderly_reduce reducer.strict Reduction.depthLimit).statement
    reducer.expected? hplaced
  cases hrun : Reduction.reduce reducer.strict Reduction.depthLimit reducer.expected? tree
      ⟨reducer.table, []⟩ with
  | ok reduced after =>
    have htable : after.table = reducer.table.record reduced := hrecords.returned hrun
    rw [reducer.visit_of_ok hrun, htable]
    rcases reduce_declaration_or_none hplaced hrun with
      ⟨keyword, name, type, value, reducedValue, rfl, rfl⟩ | ⟨hnone, hreducedNone⟩
    · exact .declared (Table.extended_declare name _ reducer.table)
    · rw [Table.record, hreducedNone]
      exact .undeclared reduced hnone
  | error failure after =>
    have htable : after.table = reducer.table := hrecords.failed hrun
    rw [reducer.visit_of_error hrun, htable]
    exact .failed tree failure

end Reducer

/-- A visit, which is the walk that puts back what it replaces, leaves the reducer as it was if the
tree is an expression, also when it fails, and does to it what `Visited` says if the tree is a
statement. What is expected stays the same at every tree. -/
theorem Reducer.visit_restores (reducer : Reducer) (tree : Tree) :
    reducer.visitInPlace tree = reducer.visit tree ∧
      (reducer.visitInPlace tree).reducer.expected? = reducer.expected? ∧
      (tree.placedExpression = true → (reducer.visitInPlace tree).reducer = reducer) ∧
      (tree.placedStatement = true →
        Visited reducer tree (reducer.visitInPlace tree).result
          (reducer.visitInPlace tree).reducer) := by
  have hsame := Reducer.visitInPlace_eq_visit reducer tree
  refine ⟨hsame, ?_, fun hplaced ↦ ?_, fun hplaced ↦ ?_⟩
  · rw [hsame]
    unfold Reducer.visit
    dsimp only
    split <;> rfl
  · rw [hsame]
    exact reducer_visit_of_placedExpression hplaced
  · rw [hsame]
    exact visited_of_placedStatement hplaced

/-- A strict reducer amid its work: `x` is declared in a scope inside another, and `float` is
expected. -/
def midwayReducer : Reducer :=
  ⟨true, ⟨[[(some "x", [⟨false, .basicType .int, .integer 1⟩])], []]⟩, some (.basicType .float)⟩

/-- The expression `{let y: int = {let z: int = 3; 2.5}; y}`, in which a fraction stands two blocks
deep where an integer is needed. -/
def misplacedFraction : Tree :=
  .block
    [.declaration .let_ (some "y") (.basicType .int)
      (.block [.declaration .let_ (some "z") (.basicType .int) (.literal (some "3"))]
        (.literal (some "2.5")))]
    (.identifier (some "y"))

/-- The statement `mut x: int = 2;`. -/
def secondDeclaration : Tree :=
  .declaration .mut_ (some "x") (.basicType .int) (.literal (some "2"))

/-- The expression fails between its scopes and leaves nothing behind; the statement puts a second
binding behind the first. -/
theorem Reducer.visit_restores_midway :
    (midwayReducer.visitInPlace misplacedFraction).result =
        .error (.semantic (.invalidLiteral "2.5" "int" .fractional)) ∧
      (midwayReducer.visitInPlace misplacedFraction).reducer = midwayReducer ∧
      Visited midwayReducer secondDeclaration
        (.ok (.declaration .mut_ (some "x") (.basicType .int) (.integer 2)))
        ⟨true, ⟨[[(some "x", [⟨false, .basicType .int, .integer 1⟩,
          ⟨true, .basicType .int, .integer 2⟩])], []]⟩, some (.basicType .float)⟩ := by
  obtain ⟨-, -, hexpression, -⟩ := Reducer.visit_restores midwayReducer misplacedFraction
  obtain ⟨-, -, -, hstatement⟩ := Reducer.visit_restores midwayReducer secondDeclaration
  exact ⟨rfl, hexpression rfl, hstatement rfl⟩

end LetLang
