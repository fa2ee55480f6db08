import LetLang.Proofs.Grammar.Backtracking
import LetLang.Proofs.Grammar.Placement
import LetLang.Proofs.Grammar.Soundness
import LetLang.Reduction.Reduce
import Mathlib.Data.List.Induction

/-!
# The table of names after a reduction

After a program was reduced, the table of names can be read off the reduced program: it holds what
the declarations among the statements say, and nothing that was declared inside a block
(`Table.ofStatements`). When the reduction of a statement fails, the table is the one that the
statements before it left (`table_validate`).

An expression leaves the table as it was, whether it is reduced or fails (`Leaves`). The
statements of a block change only the frame that was opened for the block, which is closed again at
its end; the first declaration of a program opens a frame that is not. A statement adds one binding
if it is a declaration that succeeds, and otherwise nothing (`Records`).
-/

set_option autoImplicit false

namespace LetLang

/-! ### The table that statements stand for -/

/-- The name and the binding that a statement declares, if it is a declaration. -/
def Tree.declared? : Tree → Option (Lexeme × Binding)
  | declaration keyword name type value => some (name, ⟨keyword.isMutable, type, value⟩)
  | _ => none

/-- The bindings of one name among those of several names. -/
def bindingsOf (bindings : List (Lexeme × Binding)) (name : Lexeme) : List Binding :=
  (bindings.filter fun entry => entry.1 = name).map Prod.snd

/-- The frame of bindings made one after the other: the names in the order in which they first
occur, each with its bindings in their order. -/
def Frame.ofBindings (bindings : List (Lexeme × Binding)) : Frame :=
  (bindings.map Prod.fst).eraseDups.map fun name => (name, bindingsOf bindings name)

/-- The table of the declarations among statements: one frame, or none if there are none. -/
def Table.ofStatements (statements : List Tree) : Table :=
  let bindings := statements.filterMap Tree.declared?
  if bindings.isEmpty then {} else ⟨[Frame.ofBindings bindings]⟩

theorem nodup_eraseDups (names : List Lexeme) : names.eraseDups.Nodup := by
  induction hlength : names.length using Nat.strongRecOn generalizing names with
  | ind length ih =>
    cases names with
    | nil => exact List.nodup_nil
    | cons name names =>
      rw [List.eraseDups_cons, List.nodup_cons]
      constructor
      · simp [List.mem_eraseDups]
      · have hle := List.length_filter_le (fun other ↦ !other == name) names
        rw [List.length_cons] at hlength
        exact ih _ (by omega) _ rfl

theorem eraseDups_concat (names : List Lexeme) (name : Lexeme) :
    (names ++ [name]).eraseDups =
      if name ∈ names then names.eraseDups else names.eraseDups ++ [name] := by
  rw [List.eraseDups_append]
  by_cases hname : name ∈ names
  · simp [List.removeAll, hname]
  · simp [List.removeAll, hname, List.eraseDups_cons]

theorem Frame.add_of_mem {names : List Lexeme} {name : Lexeme} (hnames : names.Nodup)
    (hname : name ∈ names) (bindingsOf : Lexeme → List Binding) (binding : Binding) :
    Frame.add name binding (names.map fun other => (other, bindingsOf other)) =
      names.map fun other =>
        (other, bindingsOf other ++ if other = name then [binding] else []) := by
  induction names with
  | nil => cases hname
  | cons first names ih =>
    obtain ⟨hfirst, hnames⟩ := List.nodup_cons.mp hnames
    rw [List.map_cons, Frame.add, List.map_cons]
    by_cases hsame : first = name
    · subst hsame
      rw [if_pos rfl, if_pos rfl]
      congr 1
      refine List.map_congr_left fun other hother ↦ ?_
      have hne : other ≠ first := fun hsame ↦ hfirst (hsame ▸ hother)
      rw [if_neg hne, List.append_nil]
    · rw [if_neg hsame, if_neg hsame, List.append_nil]
      rw [ih hnames ((List.mem_cons.mp hname).resolve_left (Ne.symm hsame))]

theorem Frame.add_of_not_mem {names : List Lexeme} {name : Lexeme} (hname : name ∉ names)
    (bindingsOf : Lexeme → List Binding) (binding : Binding) :
    Frame.add name binding (names.map fun other => (other, bindingsOf other)) =
      (names.map fun other => (other, bindingsOf other)) ++ [(name, [binding])] := by
  induction names with
  | nil => rfl
  | cons first names ih =>
    obtain ⟨hfirst, hrest⟩ := not_or.mp (mt List.mem_cons.mpr hname)
    rw [List.map_cons, Frame.add, if_neg (Ne.symm hfirst), ih hrest, List.cons_append]

theorem bindingsOf_concat (bindings : List (Lexeme × Binding)) (name other : Lexeme)
    (binding : Binding) :
    bindingsOf (bindings ++ [(name, binding)]) other =
      bindingsOf bindings other ++ if other = name then [binding] else [] := by
  unfold bindingsOf
  by_cases hother : other = name
  · simp [hother]
  · simp [hother, Ne.symm hother]

theorem bindingsOf_eq_nil {bindings : List (Lexeme × Binding)} {name : Lexeme}
    (hname : name ∉ bindings.map Prod.fst) : bindingsOf bindings name = [] := by
  simp only [bindingsOf, List.map_eq_nil_iff, List.filter_eq_nil_iff, decide_eq_true_eq]
  exact fun entry hentry hsame ↦ hname (hsame ▸ List.mem_map_of_mem hentry)

/-- One more binding of a name goes behind those that the name has. -/
theorem Frame.add_ofBindings (name : Lexeme) (binding : Binding)
    (bindings : List (Lexeme × Binding)) :
    Frame.add name binding (Frame.ofBindings bindings) =
      Frame.ofBindings (bindings ++ [(name, binding)]) := by
  unfold Frame.ofBindings
  rw [List.map_append, List.map_cons, List.map_nil, eraseDups_concat]
  simp only [bindingsOf_concat]
  by_cases hname : name ∈ bindings.map Prod.fst
  · rw [if_pos hname]
    exact Frame.add_of_mem (nodup_eraseDups _) (List.mem_eraseDups.mpr hname) _ binding
  · have hearlier : ∀ other ∈ (bindings.map Prod.fst).eraseDups, other ≠ name := by
      rintro other hother rfl
      exact hname (List.mem_eraseDups.mp hother)
    rw [if_neg hname, Frame.add_of_not_mem (mt List.mem_eraseDups.mp hname), List.map_append,
      List.map_cons, List.map_nil, bindingsOf_eq_nil hname, if_pos rfl]
    refine congrArg (· ++ [(name, [binding])]) (List.map_congr_left fun other hother ↦ ?_)
    rw [if_neg (hearlier other hother), List.append_nil]

/-- A table after a reduced statement: a declaration is recorded, and all else changes nothing. -/
def Table.record (table : Table) (statement : Tree) : Table :=
  match statement.declared? with
  | some (name, binding) => table.declare name binding
  | none => table

theorem foldl_record (statements : List Tree) :
    statements.foldl Table.record {} = Table.ofStatements statements := by
  induction statements using List.reverseRecOn with
  | nil => rfl
  | append_singleton statements statement ih =>
    rw [List.foldl_append, List.foldl_cons, List.foldl_nil, ih, Table.record]
    cases hdeclared : statement.declared? with
    | none => simp [Table.ofStatements, hdeclared]
    | some entry =>
      obtain ⟨name, binding⟩ := entry
      cases hbindings : statements.filterMap Tree.declared? with
      | nil =>
        have hframe : Frame.add name binding [] = Frame.ofBindings [(name, binding)] :=
          Frame.add_ofBindings name binding []
        simp [Table.ofStatements, hdeclared, hbindings, Table.declare, hframe]
      | cons first rest =>
        simp [Table.ofStatements, hdeclared, hbindings, Table.declare, Frame.add_ofBindings]

/-! ### What a reduction leaves of the table -/

/-- The table of names at the end of a run. -/
def tableAfter {α : Type} : EStateM.Result ReductionFailure ReductionState α → Table
  | .ok _ after => after.table
  | .error _ after => after.table

/-- Whatever comes of the reduction, it leaves a view of the table as it was: the whole of it (`id`)
or all that is outside of the innermost scope (`Table.pop`). -/
def Leaves {α : Type} (view : Table → Table) (reduction : Reduction α) : Prop :=
  ∀ before, view (tableAfter (reduction before)) = view before.table

namespace Leaves

variable {α β : Type} {view : Table → Table}

theorem of_id {reduction : Reduction α} (hleaves : Leaves id reduction) : Leaves view reduction :=
  fun before ↦ congrArg view (hleaves before)

theorem of_ok {reduction : Reduction α} {before after : ReductionState} {value : α}
    (hleaves : Leaves view reduction) (hrun : reduction before = .ok value after) :
    view after.table = view before.table := by
  rw [← hleaves before, hrun, tableAfter]

theorem of_error {reduction : Reduction α} {before after : ReductionState}
    {failure : ReductionFailure} (hleaves : Leaves view reduction)
    (hrun : reduction before = .error failure after) : view after.table = view before.table := by
  rw [← hleaves before, hrun, tableAfter]

theorem pure (value : α) : Leaves view (Pure.pure value : Reduction α) := fun _ ↦ rfl

theorem throw (failure : ReductionFailure) :
    Leaves view (throwThe ReductionFailure failure : Reduction α) := fun _ ↦ rfl

theorem get : Leaves view (MonadState.get : Reduction ReductionState) := fun _ ↦ rfl

theorem bind {first : Reduction α} {next : α → Reduction β} (hfirst : Leaves view first)
    (hnext : ∀ value, Leaves view (next value)) : Leaves view (first >>= next) := by
  intro before
  cases hrun : first before with
  | ok value middle =>
    rw [Run.bind_of_ok hrun]
    exact (hnext value middle).trans (hfirst.of_ok hrun)
  | error failure after =>
    rw [Run.bind_of_error hrun]
    exact hfirst.of_error hrun

theorem mapM {body : Tree → Reduction Tree} {trees : List Tree}
    (hbody : ∀ tree ∈ trees, Leaves view (body tree)) : Leaves view (trees.mapM body) := by
  induction trees with
  | nil => exact pure []
  | cons tree trees ih =>
    rw [List.forall_mem_cons] at hbody
    rw [List.mapM_cons]
    exact bind hbody.1 fun first ↦ bind (ih hbody.2) fun rest ↦ pure (first :: rest)

theorem ifPresent {body : Tree → Reduction Tree} {tree : Tree}
    (hbody : tree.isPresent = true → Leaves view (body tree)) :
    Leaves view (Reduction.ifPresent body tree) := by
  unfold Reduction.ifPresent
  split
  · next hpresent => exact hbody hpresent
  · exact pure Tree.absent

end Leaves

theorem ReductionState.table_leave (state : ReductionState) :
    state.leave.table = state.table.pop := by
  unfold ReductionState.leave
  split
  · next hnone =>
    have hframes : state.table.frames = [] := List.eq_nil_of_length_eq_zero hnone
    rw [Table.pop, hframes, List.tail_nil, ← hframes]
  · rfl

theorem ReductionState.table_declare (state : ReductionState) (name : Lexeme) (binding : Binding) :
    (state.declare name binding).table = state.table.declare name binding := by
  unfold ReductionState.declare
  dsimp only
  split
  · next hnone =>
    have hframes : state.table.frames = [] := List.eq_nil_of_length_eq_zero hnone
    simp only [ReductionState.enter, Table.push, Table.declare, hframes]
  · rfl

/-- A scope of its own hides all that is done to the innermost frame. -/
theorem leaves_inScope {α : Type} {body : Reduction α} (hbody : Leaves Table.pop body) :
    Leaves id (Reduction.inScope body) := by
  intro before
  unfold Reduction.inScope
  cases hrun : body before.enter with
  | ok value after => exact (ReductionState.table_leave after).trans (hbody.of_ok hrun)
  | error failure after => exact (ReductionState.table_leave after).trans (hbody.of_error hrun)

theorem leaves_compute (op : ArithOp) (left right : Number) :
    Leaves id (Reduction.compute op left right) := by
  unfold Reduction.compute
  split
  · exact fun _ ↦ rfl
  · exact .throw _

theorem leaves_arith (strict : Bool) (op : ArithOp) (left right : Tree) :
    Leaves id (Reduction.arith strict op left right) := by
  have hkept : ∀ operand, Leaves id (if strict = true then
      Reduction.fail (.irreducible op.operation operand)
      else Pure.pure (Tree.arith op left right)) := by
    intro operand
    split
    · exact .throw _
    · exact .pure _
  unfold Reduction.arith
  split
  · exact leaves_compute op _ _
  · exact hkept right
  · exact hkept left

theorem leaves_negation (strict : Bool) (factor : Tree) :
    Leaves id (Reduction.negation strict factor) := by
  unfold Reduction.negation
  split
  · exact .pure _
  · split
    · exact .throw _
    · exact .pure _

theorem leaves_literal (expected? : Option Tree) (lexeme : Lexeme) :
    Leaves id (Reduction.literal expected? lexeme) := by
  unfold Reduction.literal
  split
  · exact .pure _
  · exact .throw _

/-! ### What a reduction records in the table -/

/-- The reduction records what the statement that it returns declares, and nothing if it fails. -/
structure Records (reduction : Reduction Tree) : Prop where
  returned : ∀ {before reduced after}, reduction before = .ok reduced after →
    after.table = before.table.record reduced
  failed : ∀ {before failure after}, reduction before = .error failure after →
    after.table = before.table

theorem Leaves.records {reduction : Reduction Tree} (hleaves : Leaves id reduction)
    (hnone : Run.Returns (fun reduced ↦ reduced.declared? = none) reduction) :
    Records reduction where
  returned := by
    intro before reduced after hrun
    rw [Table.record, hnone before reduced after hrun]
    exact hleaves.of_ok hrun
  failed := hleaves.of_error

theorem Table.pop_record (table : Table) (statement : Tree) :
    (table.record statement).pop = table.pop := by
  unfold Table.record Table.declare
  split
  · split
    · next hframes => rw [Table.pop, Table.pop, hframes]; rfl
    · next hframes => rw [Table.pop, Table.pop, hframes]; rfl
  · rfl

theorem Records.leaves {reduction : Reduction Tree} (hrecords : Records reduction) :
    Leaves Table.pop reduction := by
  intro before
  cases hrun : reduction before with
  | ok reduced after =>
    rw [tableAfter, hrecords.returned hrun, Table.pop_record]
  | error failure after => rw [tableAfter, hrecords.failed hrun]

/-- Statements one after the other record what they declare one after the other. -/
theorem table_of_mapM {body : Tree → Reduction Tree} {statements reduced : List Tree}
    {before after : ReductionState} (hbody : ∀ statement ∈ statements, Records (body statement))
    (hrun : statements.mapM body before = .ok reduced after) :
    after.table = reduced.foldl Table.record before.table := by
  induction statements generalizing before reduced with
  | nil =>
    cases hrun
    rfl
  | cons statement statements ih =>
    rw [List.forall_mem_cons] at hbody
    rw [List.mapM_cons] at hrun
    obtain ⟨first, middle, hfirst, hrun⟩ := Run.exists_of_bind_eq_ok hrun
    obtain ⟨rest, last, hrest, hpure⟩ := Run.exists_of_bind_eq_ok hrun
    cases hpure
    rw [List.foldl_cons, ← hbody.1.returned hfirst]
    exact ih hbody.2 hrest

/-! ### Trees -/

/-- What a way to reduce trees does to the table: nothing at an expression, and at a statement what
the statement says. -/
structure Orderly (visit : Option Tree → Tree → Reduction Tree) : Prop where
  expression : ∀ expected? {tree}, tree.placedExpression = true → Leaves id (visit expected? tree)
  statement : ∀ expected? {tree}, tree.placedStatement = true → Records (visit expected? tree)

namespace Orderly

variable {visit : Option Tree → Tree → Reduction Tree} (hvisit : Orderly visit)

include hvisit

theorem expressions (expected? : Option Tree) {trees : List Tree}
    (hplaced : Tree.placedExpressions trees = true) : Leaves id (trees.mapM (visit expected?)) :=
  .mapM fun tree htree ↦
    hvisit.expression expected? (Tree.placedExpression_of_mem hplaced tree htree)

theorem statements (expected? : Option Tree) {trees : List Tree}
    (hplaced : Tree.placedStatements trees = true) :
    ∀ tree ∈ trees, Records (visit expected? tree) :=
  fun tree htree ↦ hvisit.statement expected? (Tree.placedStatement_of_mem hplaced tree htree)

theorem optional (expected? : Option Tree) {tree : Tree}
    (hplaced : (!tree.isPresent || tree.placedExpression) = true) :
    Leaves id (Reduction.ifPresent (visit expected?) tree) := by
  refine .ifPresent fun hpresent ↦ hvisit.expression expected? ?_
  simpa [hpresent] using hplaced

end Orderly

theorem leaves_reduce {strict : Bool} {levels : Nat}
    (ih : Orderly (Reduction.reduce strict levels)) (expected? : Option Tree) {tree : Tree}
    (hplaced : tree.placedExpression = true) :
    Leaves id (Reduction.reduce strict (levels + 1) expected? tree) := by
  cases tree with
  | absent | program | declaration | assignment | statement => cases hplaced
  | arith op left right =>
    obtain ⟨hleft, hright⟩ := Bool.and_eq_true_iff.mp hplaced
    exact .bind (ih.expression expected? hleft) fun left ↦
      .bind (ih.expression expected? hright) fun right ↦ leaves_arith strict op left right
  | comparison left op right =>
    obtain ⟨hleft, hright⟩ := Bool.and_eq_true_iff.mp hplaced
    exact .bind (ih.expression none hleft) fun left ↦
      .bind (ih.expression none hright) fun right ↦ .pure _
  | call name arguments => exact .bind (ih.expressions none hplaced) fun arguments ↦ .pure _
  | block statements result =>
    obtain ⟨hstatements, hresult⟩ := Bool.and_eq_true_iff.mp hplaced
    have hbody := ih.statements expected? hstatements
    -- declarations of the block go into its own frame, and all that is outside of it stays
    refine leaves_inScope (.bind (.mapM fun statement hmem ↦ (hbody statement hmem).leaves) ?_)
    exact fun statements ↦ .bind (ih.optional expected? hresult).of_id fun result ↦ .pure _
  | branch condition body =>
    obtain ⟨hcondition, hbody⟩ := Bool.and_eq_true_iff.mp hplaced
    exact .bind (ih.expression none hcondition) fun condition ↦
      .bind (ih.expression expected? hbody) fun body ↦ .pure _
  | conditional condition body branches otherwise =>
    obtain ⟨hplaced, hotherwise⟩ := Bool.and_eq_true_iff.mp hplaced
    obtain ⟨hplaced, hbranches⟩ := Bool.and_eq_true_iff.mp hplaced
    obtain ⟨hcondition, hbody⟩ := Bool.and_eq_true_iff.mp hplaced
    exact .bind (ih.expression none hcondition) fun condition ↦
      .bind (ih.expression expected? hbody) fun body ↦
      .bind (ih.expressions expected? hbranches) fun branches ↦
      .bind (ih.optional expected? hotherwise) fun otherwise ↦ .pure _
  | negation factor =>
    exact .bind (ih.expression expected? hplaced) fun factor ↦ leaves_negation strict factor
  | parenthesized expression =>
    exact .bind (ih.expression expected? hplaced) fun inner ↦ .pure _
  | literal lexeme => exact leaves_literal expected? lexeme
  | identifier | integer | float | basicType | functionType | parameter => exact .pure _

theorem records_reduce {strict : Bool} {levels : Nat}
    (ih : Orderly (Reduction.reduce strict levels)) (expected? : Option Tree) {tree : Tree}
    (hplaced : tree.placedStatement = true) :
    Records (Reduction.reduce strict (levels + 1) expected? tree) := by
  cases tree with
  | declaration keyword name type value =>
    have hvalue := ih.expression (some type) hplaced
    constructor
    · intro before reduced after hrun
      obtain ⟨value, middle, hreduced, hrest⟩ := Run.exists_of_bind_eq_ok hrun
      cases hrest
      refine (ReductionState.table_declare middle name _).trans ?_
      exact congrArg (Table.declare · name _) (hvalue.of_ok hreduced)
    · intro before failure after hrun
      rcases Run.of_bind_eq_error hrun with hstop | ⟨value, middle, -, hrest⟩
      · exact hvalue.of_error hstop
      · cases hrest
  | assignment name value =>
    have hleaves := Leaves.get.bind fun state ↦
      (ih.expression ((state.table.lookup? name).map Binding.type) hplaced).bind fun value ↦
        .pure (Tree.assignment name value)
    exact hleaves.records (.bind fun state ↦ .bind fun value ↦ .pure rfl)
  | statement expression =>
    have hleaves := (ih.expression none hplaced).bind fun expression ↦
      .pure (Tree.statement expression)
    exact hleaves.records (.bind fun expression ↦ .pure rfl)
  | _ => cases hplaced

theorem orderly_reduce (strict : Bool) (levels : Nat) :
    Orderly (Reduction.reduce strict levels) := by
  induction levels with
  | zero =>
    exact ⟨fun _ _ _ ↦ .throw _, fun _ _ _ ↦ Leaves.records (.throw _) (.throw _)⟩
  | succ levels ih => exact ⟨leaves_reduce ih, records_reduce ih⟩

/-! ### Programs -/

theorem Reducer.visit_of_ok (reducer : Reducer) {tree reduced : Tree} {after : ReductionState}
    (hrun : Reduction.reduce reducer.strict Reduction.depthLimit reducer.expected? tree
      ⟨reducer.table, []⟩ = .ok reduced after) :
    reducer.visit tree = ⟨.ok reduced, { reducer with table := after.table }, after.trace⟩ := by
  unfold Reducer.visit
  dsimp only
  rw [hrun]

theorem Reducer.visit_of_error (reducer : Reducer) {tree : Tree} {failure : ReductionFailure}
    {after : ReductionState}
    (hrun : Reduction.reduce reducer.strict Reduction.depthLimit reducer.expected? tree
      ⟨reducer.table, []⟩ = .error failure after) :
    reducer.visit tree = ⟨.error failure, { reducer with table := after.table }, after.trace⟩ := by
  unfold Reducer.visit
  dsimp only
  rw [hrun]

/-- The reduction of the statements of a program. -/
def reduceStatements (strict : Bool) (statements : List Tree) : Reduction (List Tree) :=
  statements.mapM (Reduction.reduce strict (Reduction.depthLimit - 1) none)

theorem validate_of_ok {strict : Bool} {statements reduced : List Tree} {after : ReductionState}
    (hrun : reduceStatements strict statements {} = .ok reduced after) :
    (validate strict (.program statements)).result = .ok (.program reduced) ∧
      (validate strict (.program statements)).reducer.table = after.table := by
  have hreduce : Reduction.reduce strict Reduction.depthLimit none (.program statements) {} =
      .ok (.program reduced) after := Run.bind_of_ok hrun
  rw [validate, Reducer.validate, Reducer.visit_of_ok { strict := strict } hreduce]
  exact ⟨rfl, rfl⟩

theorem validate_of_error {strict : Bool} {statements : List Tree} {failure : ReductionFailure}
    {after : ReductionState} (hrun : reduceStatements strict statements {} = .error failure after) :
    (validate strict (.program statements)).result = .error failure ∧
      (validate strict (.program statements)).reducer.table = after.table := by
  have hreduce : Reduction.reduce strict Reduction.depthLimit none (.program statements) {} =
      .error failure after := Run.bind_of_error hrun
  rw [validate, Reducer.validate, Reducer.visit_of_error { strict := strict } hreduce]
  exact ⟨rfl, rfl⟩

theorem table_of_reduceStatements {strict : Bool} {statements reduced : List Tree}
    {after : ReductionState} (hplaced : Tree.placedStatements statements = true)
    (hrun : reduceStatements strict statements {} = .ok reduced after) :
    after.table = Table.ofStatements reduced := by
  have horderly := orderly_reduce strict (Reduction.depthLimit - 1)
  rw [table_of_mapM (horderly.statements none hplaced) hrun]
  exact foldl_record reduced

end LetLang
