import LetLang.Proofs.Meaning.Failures
import LetLang.Proofs.Meaning.NormalForm

/-!
# Parentheses do not change a reduction

A program and the same program without its parentheses (`Tree.bare`) have the same reduction, up to
the parentheses that are left in the first: both succeed, with programs and tables of names that are
the same without parentheses, or both fail with the same code (`validate_bare`). There is one
exception to the last part, and it has nothing to do with parentheses: a literal of thousands of
zeros makes both fail in the same way, but with no semantic error (`validate_bare_zeros`).

The two reductions are run side by side (`Strips`). Parentheses take a level of the tree, so the
second one has at least as many levels to go down as the first, and where the first goes too deep
nothing is said. What the second one returns is what the first one returns without its parentheses,
and one is a number if the other is (`BareOf`): this is what makes an operation fold on both sides or
on none, since parentheses never stay around a number.
-/

set_option autoImplicit false

namespace LetLang

/-! ### Trees and tables without parentheses -/

mutual

/-- A tree without its parentheses, of which the content is kept. Types have none. -/
def Tree.bare : Tree → Tree
  | .program statements => .program (Tree.bareAll statements)
  | .declaration keyword name type value => .declaration keyword name type value.bare
  | .assignment name value => .assignment name value.bare
  | .statement expression => .statement expression.bare
  | .arith op left right => .arith op left.bare right.bare
  | .comparison left op right => .comparison left.bare op right.bare
  | .call name arguments => .call name (Tree.bareAll arguments)
  | .block statements result => .block (Tree.bareAll statements) result.bare
  | .branch condition body => .branch condition.bare body.bare
  | .conditional condition body branches otherwise =>
    .conditional condition.bare body.bare (Tree.bareAll branches) otherwise.bare
  | .negation factor => .negation factor.bare
  | .parenthesized expression => expression.bare
  | tree => tree

/-- The same of several trees. -/
def Tree.bareAll : List Tree → List Tree
  | [] => []
  | tree :: rest => tree.bare :: Tree.bareAll rest

end

mutual

theorem Tree.bare_bare (tree : Tree) : tree.bare.bare = tree.bare := by
  match tree with
  | .program statements => simp [Tree.bare, Tree.bareAll_bareAll statements]
  | .declaration _ _ _ value => simp [Tree.bare, value.bare_bare]
  | .assignment _ value => simp [Tree.bare, value.bare_bare]
  | .statement expression => simp [Tree.bare, expression.bare_bare]
  | .arith _ left right => simp [Tree.bare, left.bare_bare, right.bare_bare]
  | .comparison left _ right => simp [Tree.bare, left.bare_bare, right.bare_bare]
  | .call _ arguments => simp [Tree.bare, Tree.bareAll_bareAll arguments]
  | .block statements result =>
    simp [Tree.bare, Tree.bareAll_bareAll statements, result.bare_bare]
  | .branch condition body => simp [Tree.bare, condition.bare_bare, body.bare_bare]
  | .conditional condition body branches otherwise =>
    simp [Tree.bare, condition.bare_bare, body.bare_bare, Tree.bareAll_bareAll branches,
      otherwise.bare_bare]
  | .negation factor => simp [Tree.bare, factor.bare_bare]
  | .parenthesized expression => simp [Tree.bare, expression.bare_bare]
  | .absent | .identifier _ | .literal _ | .integer _ | .float _ | .basicType _
  | .functionType .. | .parameter .. => rfl

theorem Tree.bareAll_bareAll (trees : List Tree) :
    Tree.bareAll (Tree.bareAll trees) = Tree.bareAll trees := by
  match trees with
  | [] => rfl
  | tree :: rest => simp [Tree.bareAll, tree.bare_bare, Tree.bareAll_bareAll rest]

end

/-- A binding whose value has no parentheses. -/
def Binding.bare (binding : Binding) : Binding := { binding with value := binding.value.bare }

/-- A frame whose values have no parentheses. -/
def Frame.bare (frame : Frame) : Frame :=
  frame.map fun entry => (entry.1, entry.2.map Binding.bare)

/-- A table whose values have no parentheses. -/
def Table.bare (table : Table) : Table := ⟨table.frames.map Frame.bare⟩

theorem Table.bare_bare (table : Table) : table.bare.bare = table.bare := by
  have hbinding : ∀ binding : Binding, binding.bare.bare = binding.bare :=
    fun binding ↦ congrArg (Binding.mk binding.isMutable binding.type) binding.value.bare_bare
  have hframe : Frame.bare ∘ Frame.bare = Frame.bare := by
    funext frame
    simp [Frame.bare, hbinding]
  rw [Table.bare, Table.bare, List.map_map, hframe]

theorem Table.bare_push (table : Table) : table.push.bare = table.bare.push := rfl

theorem Table.bare_pop (table : Table) : table.pop.bare = table.bare.pop := by
  rw [Table.bare, Table.pop, List.map_tail, Table.pop, Table.bare]

theorem Frame.bare_add (name : Lexeme) (binding : Binding) (frame : Frame) :
    Frame.bare (Frame.add name binding frame) = Frame.add name binding.bare (Frame.bare frame) := by
  induction frame with
  | nil => rfl
  | cons entry rest ih =>
    rw [Frame.add]
    change _ = Frame.add name binding.bare ((entry.1, entry.2.map Binding.bare) :: Frame.bare rest)
    rw [Frame.add]
    split
    · simp [Frame.bare]
    · rw [← ih]
      rfl

theorem Table.bare_declare (table : Table) (name : Lexeme) (binding : Binding) :
    (table.declare name binding).bare = table.bare.declare name binding.bare := by
  obtain ⟨frames⟩ := table
  cases frames with
  | nil => rfl
  | cons frame outer =>
    change Table.mk (Frame.bare (Frame.add name binding frame) :: outer.map Frame.bare) = _
    rw [Frame.bare_add]
    rfl

theorem Frame.lookup_bare (frame : Frame) (name : Lexeme) :
    (Frame.bare frame).lookup name = (frame.lookup name).map (List.map Binding.bare) := by
  induction frame with
  | nil => rfl
  | cons entry rest ih =>
    change List.lookup name ((entry.1, entry.2.map Binding.bare) :: Frame.bare rest) = _
    rw [List.lookup_cons, List.lookup_cons]
    split
    · rfl
    · exact ih

/-- The types of the names are the same with and without the parentheses of the values. -/
theorem Table.type_lookup?_bare (table : Table) (name : Lexeme) :
    (table.bare.lookup? name).map Binding.type = (table.lookup? name).map Binding.type := by
  have hfound : table.bare.lookup? name = (table.lookup? name).map Binding.bare := by
    rw [Table.lookup?, Table.lookup?, Table.bare, List.findSome?_map, List.map_findSome?]
    refine congrArg (List.findSome? · table.frames) (funext fun frame ↦ ?_)
    simp only [Function.comp_apply, Frame.lookup_bare]
    cases frame.lookup name with
    | none => rfl
    | some bindings => exact List.getLast?_map
  rw [hfound, Option.map_map]
  rfl

/-! ### Two reductions side by side -/

/-- Failures that are the same or are semantic errors with the same code. -/
inductive ReductionFailure.Alike : ReductionFailure → ReductionFailure → Prop
  | same (failure : ReductionFailure) : Alike failure failure
  | code {first second : SemanticError} (hcode : first.code = second.code) :
      Alike (.semantic first) (.semantic second)

/-- How the outcome of the second reduction goes with that of the first: it returns something that is
related to what the first returns, with a table that is the same without parentheses, or it fails
alike. -/
def Stripped {α : Type} (related : α → α → Prop) :
    EStateM.Result ReductionFailure ReductionState α →
      EStateM.Result ReductionFailure ReductionState α → Prop
  | .ok value after, second => ∃ value' after', second = .ok value' after' ∧ related value value' ∧
      after'.table = after.table.bare
  | .error failure _, second => failure = .semantic .tooDeep ∨
      ∃ failure' after', second = .error failure' after' ∧ failure.Alike failure'

/-- From tables that are the same without parentheses, the second reduction goes with the first. -/
def Strips {α : Type} (related : α → α → Prop) (first second : Reduction α) : Prop :=
  ∀ before before', before'.table = before.table.bare → Stripped related (first before) (second before')

/-- The second tree is the first without its parentheses, and is a number if the first is one. -/
structure BareOf (tree other : Tree) : Prop where
  bare : other = tree.bare
  number : other.number? = tree.number?

/-- The second trees are the first ones without their parentheses. -/
def AllBareOf (trees others : List Tree) : Prop := others = Tree.bareAll trees

namespace Strips

variable {α β : Type} {related : α → α → Prop} {relatedNext : β → β → Prop}

theorem pure {value value' : α} (hvalue : related value value') :
    Strips related (Pure.pure value) (Pure.pure value') :=
  fun _ before' htable ↦ ⟨value', before', rfl, hvalue, htable⟩

theorem throw {failure failure' : ReductionFailure} (halike : failure.Alike failure') :
    Strips related (throwThe ReductionFailure failure : Reduction α)
      (throwThe ReductionFailure failure') :=
  fun _ before' _ ↦ .inr ⟨failure', before', rfl, halike⟩

theorem tooDeep {second : Reduction α} : Strips related (Reduction.fail .tooDeep) second :=
  fun _ _ _ ↦ .inl rfl

theorem bind {first first' : Reduction α} {next next' : α → Reduction β}
    (hfirst : Strips related first first')
    (hnext : ∀ value value', related value value' → Strips relatedNext (next value) (next' value')) :
    Strips relatedNext (first >>= next) (first' >>= next') := by
  intro before before' htable
  have hbefore := hfirst before before' htable
  cases hrun : first before with
  | ok value middle =>
    rw [hrun] at hbefore
    obtain ⟨value', middle', hrun', hvalue, hmiddle⟩ := hbefore
    rw [Run.bind_of_ok hrun, Run.bind_of_ok hrun']
    exact hnext value value' hvalue middle middle' hmiddle
  | error failure after =>
    rw [hrun] at hbefore
    rw [Run.bind_of_error hrun]
    rcases hbefore with hdeep | ⟨failure', after', hrun', halike⟩
    · exact .inl hdeep
    · exact .inr ⟨failure', after', Run.bind_of_error hrun', halike⟩

/-- The first reduction does something to what it returns that the second has no need of. -/
theorem keeping {first second : Reduction α} {image : α → α} (hfirst : Strips related first second)
    (himage : ∀ value value', related value value' → related (image value) value') :
    Strips related (first >>= fun value ↦ Pure.pure (image value)) second := by
  have hboth : Strips related (first >>= fun value ↦ Pure.pure (image value))
      (second >>= Pure.pure) :=
    bind hfirst fun value value' hvalue ↦ pure (himage value value' hvalue)
  rwa [bind_pure] at hboth

theorem declare {name : Lexeme} {binding binding' : Binding} (hbinding : binding' = binding.bare) :
    Strips (fun _ _ ↦ True) (modify (·.declare name binding) : Reduction Unit)
      (modify (·.declare name binding')) := by
  intro before before' htable
  refine ⟨⟨⟩, before'.declare name binding', rfl, trivial, ?_⟩
  rw [ReductionState.table_declare, htable, hbinding, ← Table.bare_declare,
    ← ReductionState.table_declare]

theorem mapM {body body' : Tree → Reduction Tree} {trees : List Tree}
    (hbody : ∀ tree ∈ trees, Strips BareOf (body tree) (body' tree.bare)) :
    Strips AllBareOf (trees.mapM body) ((Tree.bareAll trees).mapM body') := by
  induction trees with
  | nil =>
    rw [Tree.bareAll, List.mapM_nil, List.mapM_nil]
    exact pure rfl
  | cons tree trees ih =>
    obtain ⟨htree, htrees⟩ := List.forall_mem_cons.mp hbody
    rw [Tree.bareAll, List.mapM_cons, List.mapM_cons]
    refine bind htree fun first first' hfirst ↦ bind (ih htrees) fun rest rest' hrest ↦ pure ?_
    rw [AllBareOf, hfirst.bare, hrest, Tree.bareAll]

theorem inScope {body body' : Reduction α} (hbody : Strips related body body') :
    Strips related (Reduction.inScope body) (Reduction.inScope body') := by
  intro before before' htable
  have henter : before'.enter.table = before.enter.table.bare :=
    (congrArg Table.push htable).trans before.table.bare_push.symm
  have hinner := hbody before.enter before'.enter henter
  unfold Reduction.inScope
  cases hrun : body before.enter with
  | ok value after =>
    rw [hrun] at hinner
    obtain ⟨value', after', hrun', hvalue, hafter⟩ := hinner
    rw [hrun']
    refine ⟨value', after'.leave, rfl, hvalue, ?_⟩
    rw [ReductionState.table_leave, ReductionState.table_leave, hafter, Table.bare_pop]
  | error failure after =>
    rw [hrun] at hinner
    rcases hinner with hdeep | ⟨failure', after', hrun', halike⟩
    · exact .inl hdeep
    · rw [hrun']
      exact .inr ⟨failure', after'.leave, rfl, halike⟩

end Strips

/-! ### Arithmetic -/

section

variable {strict : Bool} {left right left' right' factor factor' : Tree}

theorem bareOf_number (number : Number) : BareOf number.tree number.tree := by
  cases number with
  | int value => exact ⟨rfl, rfl⟩
  | float value => exact ⟨rfl, rfl⟩

theorem strips_compute (op : ArithOp) (first second : Number) :
    Strips BareOf (Reduction.compute op first second) (Reduction.compute op first second) := by
  unfold Reduction.compute
  cases op.apply first second with
  | ok result => exact fun before before' htable ↦ ⟨_, _, rfl, bareOf_number result, htable⟩
  | error error => exact .throw (.same _)

/-- An operation that is not carried out stops both reductions at an operand, or is kept by both. -/
theorem strips_kept (operation : String) {operand operand' kept kept' : Tree}
    (hkept : BareOf kept kept') :
    Strips BareOf
      (if strict = true then Reduction.fail (.irreducible operation operand) else Pure.pure kept)
      (if strict = true then Reduction.fail (.irreducible operation operand')
        else Pure.pure kept') := by
  cases strict with
  | true => exact .throw (.code rfl)
  | false => exact .pure hkept

theorem strips_arith (op : ArithOp) (hleft : BareOf left left') (hright : BareOf right right') :
    Strips BareOf (Reduction.arith strict op left right) (Reduction.arith strict op left' right') := by
  have hkept : BareOf (.arith op left right) (.arith op left' right') :=
    ⟨by rw [Tree.bare, hleft.bare, hright.bare], rfl⟩
  unfold Reduction.arith
  rw [hleft.number, hright.number]
  split
  · exact strips_compute op _ _
  · exact strips_kept op.operation hkept
  · exact strips_kept op.operation hkept

theorem strips_negation (hfactor : BareOf factor factor') :
    Strips BareOf (Reduction.negation strict factor) (Reduction.negation strict factor') := by
  have hkept : BareOf (.negation factor) (.negation factor') :=
    ⟨by rw [Tree.bare, hfactor.bare], rfl⟩
  unfold Reduction.negation
  rw [hfactor.number]
  split
  · next number _ => exact .pure (bareOf_number number.negated)
  · exact strips_kept "negation" hkept

/-- Parentheses stay around what is no number, so the content is no number either. -/
theorem bareOf_parenthesized (hfactor : BareOf factor factor') :
    BareOf (Reduction.parenthesized factor) factor' := by
  unfold Reduction.parenthesized
  split
  · exact hfactor
  · next hnumber =>
    refine ⟨by rw [Tree.bare, hfactor.bare], hfactor.number.trans ?_⟩
    rw [Tree.isNumber_eq_isSome, Bool.not_eq_true, Option.isSome_eq_false_iff,
      Option.isNone_iff_eq_none] at hnumber
    exact hnumber

theorem strips_literal (expected? : Option Tree) (lexeme : Lexeme) :
    Strips BareOf (Reduction.literal expected? lexeme) (Reduction.literal expected? lexeme) := by
  unfold Reduction.literal
  split
  · next number _ => exact .pure (bareOf_number number)
  · exact .throw (.same _)

end

/-! ### Trees -/

/-- Where a place is filled, it is so without the parentheses. -/
theorem Tree.isPresent_bare {property : Lexeme → Prop} (tree : Tree)
    (hspelled : tree.Spelled property) : tree.bare.isPresent = true := by
  match tree with
  | .absent => exact hspelled.elim
  | .parenthesized expression => exact expression.isPresent_bare hspelled
  | .program _ | .declaration .. | .assignment .. | .statement _ | .arith .. | .comparison ..
  | .call .. | .block .. | .branch .. | .conditional .. | .negation _ | .identifier _ | .literal _
  | .integer _ | .float _ | .basicType _ | .functionType .. | .parameter .. => rfl

theorem strips_ifPresent {property : Lexeme → Prop} {body body' : Tree → Reduction Tree} {tree : Tree}
    (hspelled : tree.isPresent = true → tree.Spelled property)
    (hbody : tree.Spelled property → Strips BareOf (body tree) (body' tree.bare)) :
    Strips BareOf (Reduction.ifPresent body tree) (Reduction.ifPresent body' tree.bare) := by
  unfold Reduction.ifPresent
  split
  · next hpresent =>
    rw [if_pos (tree.isPresent_bare (hspelled hpresent))]
    exact hbody (hspelled hpresent)
  · next habsent =>
    obtain rfl : tree = .absent := by cases tree <;> first | rfl | exact absurd rfl habsent
    exact .pure ⟨rfl, rfl⟩

/-- A reduction and that of the tree without parentheses go together. The induction is on the levels
that the first may go down; the second may go down as many at least. -/
theorem strips_reduce {property : Lexeme → Prop} (strict : Bool) (levels : Nat) :
    ∀ {levels' : Nat} (expected? : Option Tree) {tree : Tree}, levels ≤ levels' →
      tree.Spelled property →
        Strips BareOf (Reduction.reduce strict levels expected? tree)
          (Reduction.reduce strict levels' expected? tree.bare) := by
  induction levels with
  | zero => exact fun expected? _ _ _ ↦ .tooDeep
  | succ levels ih =>
    intro levels' expected? tree hlevels hspelled
    obtain ⟨levels', rfl⟩ : ∃ fewer, levels' = fewer + 1 := ⟨levels' - 1, by omega⟩
    have hfewer : levels ≤ levels' := Nat.le_of_succ_le_succ hlevels
    have hrow : ∀ (expected? : Option Tree) {trees : List Tree}, Tree.AllSpelled property trees →
        Strips AllBareOf (trees.mapM (Reduction.reduce strict levels expected?))
          ((Tree.bareAll trees).mapM (Reduction.reduce strict levels' expected?)) :=
      fun expected? trees htrees ↦ .mapM fun tree htree ↦
        ih expected? hfewer (htrees.of_mem tree htree)
    have hoptional : ∀ (expected? : Option Tree) {tree : Tree},
        (tree.isPresent = true → tree.Spelled property) →
          Strips BareOf (Reduction.ifPresent (Reduction.reduce strict levels expected?) tree)
            (Reduction.ifPresent (Reduction.reduce strict levels' expected?) tree.bare) :=
      fun expected? tree htree ↦ strips_ifPresent htree (ih expected? hfewer)
    cases tree with
    | absent => exact hspelled.elim
    | program statements =>
      exact .bind (hrow expected? hspelled) fun _ _ hstatements ↦
        .pure ⟨by rw [Tree.bare, hstatements], rfl⟩
    | declaration keyword name type value =>
      refine .bind (ih (some type) hfewer hspelled) fun value value' hvalue ↦ ?_
      refine .bind (.declare (congrArg (Binding.mk _ _) hvalue.bare)) fun _ _ _ ↦ ?_
      exact .pure ⟨by rw [Tree.bare, hvalue.bare], rfl⟩
    | assignment name value =>
      intro before before' htable
      have htype : (before'.table.lookup? name).map Binding.type =
          (before.table.lookup? name).map Binding.type := by
        rw [htable, Table.type_lookup?_bare]
      have hspelledValue : value.Spelled property := hspelled
      have hvalue := ih ((before.table.lookup? name).map Binding.type) hfewer hspelledValue
      rw [Tree.bare, Reduction.reduce, Run.get_bind, Reduction.reduce, Run.get_bind, htype]
      refine Strips.bind hvalue (fun value value' hvalue ↦ .pure ?_) before before' htable
      exact ⟨by rw [Tree.bare, hvalue.bare], rfl⟩
    | statement expression =>
      exact .bind (ih none hfewer hspelled) fun _ _ hexpression ↦
        .pure ⟨by rw [Tree.bare, hexpression.bare], rfl⟩
    | arith op left right =>
      refine .bind (ih expected? hfewer hspelled.1) fun _ _ hleft ↦ ?_
      exact .bind (ih expected? hfewer hspelled.2) fun _ _ hright ↦ strips_arith op hleft hright
    | comparison left op right =>
      refine .bind (ih none hfewer hspelled.1) fun _ _ hleft ↦ ?_
      exact .bind (ih none hfewer hspelled.2) fun _ _ hright ↦
        .pure ⟨by rw [Tree.bare, hleft.bare, hright.bare], rfl⟩
    | call name arguments =>
      exact .bind (hrow none hspelled) fun _ _ harguments ↦
        .pure ⟨by rw [Tree.bare, harguments], rfl⟩
    | block statements result =>
      refine .inScope (.bind (hrow expected? hspelled.1) fun _ _ hstatements ↦ ?_)
      exact .bind (hoptional expected? hspelled.2) fun _ _ hresult ↦
        .pure ⟨by rw [Tree.bare, hstatements, hresult.bare], rfl⟩
    | branch condition body =>
      refine .bind (ih none hfewer hspelled.1) fun _ _ hcondition ↦ ?_
      exact .bind (ih expected? hfewer hspelled.2) fun _ _ hbody ↦
        .pure ⟨by rw [Tree.bare, hcondition.bare, hbody.bare], rfl⟩
    | conditional condition body branches otherwise =>
      obtain ⟨hcondition, hbody, hbranches, hotherwise⟩ := hspelled
      refine .bind (ih none hfewer hcondition) fun _ _ hcondition ↦ ?_
      refine .bind (ih expected? hfewer hbody) fun _ _ hbody ↦ ?_
      refine .bind (hrow expected? hbranches) fun _ _ hbranches ↦ ?_
      exact .bind (hoptional expected? hotherwise) fun _ _ hotherwise ↦
        .pure ⟨by rw [Tree.bare, hcondition.bare, hbody.bare, hbranches, hotherwise.bare], rfl⟩
    | negation factor =>
      exact .bind (ih expected? hfewer hspelled) fun _ _ hfactor ↦ strips_negation hfactor
    | parenthesized expression =>
      -- The second reduction has nothing to do here and keeps its level.
      have hinner : expression.Spelled property := hspelled
      exact (ih expected? (Nat.le_succ_of_le hfewer) hinner).keeping fun _ _ ↦ bareOf_parenthesized
    | literal lexeme => exact strips_literal expected? lexeme
    | identifier | integer | float | basicType | functionType | parameter =>
      exact .pure ⟨rfl, rfl⟩

/-! ### Programs -/

/-- Reduced with its parentheses and without, a program that is filled and whose literals have a text
comes to the same, unless it goes too deep: both reductions succeed, and without parentheses the
reduced programs are the same, and so are the tables; or both fail with the same code; or both come to
a literal that has too many characters to be converted. -/
theorem validate_bare {strict : Bool} {program : Tree} (hspelled : program.Spelled (· ≠ none))
    (hwalked : (validate strict program).result ≠ .error (.semantic .tooDeep)) :
    (∃ reduced reduced',
      (validate strict program).result = .ok reduced ∧
      (validate strict program.bare).result = .ok reduced' ∧
      reduced.bare = reduced'.bare ∧
      (validate strict program).reducer.table.bare =
        (validate strict program.bare).reducer.table.bare) ∨
    (∃ error error',
      (validate strict program).result = .error (.semantic error) ∧
      (validate strict program.bare).result = .error (.semantic error') ∧
      error.code = error'.code) ∨
    ∃ text, Excessive text ∧
      (validate strict program).result = .error (.tooManyDigits text.length) ∧
      (validate strict program.bare).result = .error (.tooManyDigits text.length) := by
  have hboth := strips_reduce strict Reduction.depthLimit none (Nat.le_refl _) hspelled
    ⟨{}, []⟩ ⟨{}, []⟩ rfl
  cases hrun : Reduction.reduce strict Reduction.depthLimit none program ⟨{}, []⟩ with
  | ok reduced after =>
    rw [hrun] at hboth
    obtain ⟨reduced', after', hrun', hreduced, htable⟩ := hboth
    refine .inl ⟨reduced, reduced', ?_⟩
    rw [validate, validate, Reducer.validate, Reducer.validate,
      Reducer.visit_of_ok { strict := strict } hrun, Reducer.visit_of_ok { strict := strict } hrun']
    refine ⟨rfl, rfl, ?_, ?_⟩
    · rw [hreduced.bare, Tree.bare_bare]
    · change after.table.bare = after'.table.bare
      rw [htable, Table.bare_bare]
  | error failure after =>
    have hfailed : (validate strict program).result = .error failure := by
      rw [validate, Reducer.validate, Reducer.visit_of_error { strict := strict } hrun]
    rw [hrun] at hboth
    rcases hboth with rfl | ⟨failure', after', hrun', halike⟩
    · exact absurd hfailed hwalked
    have hfailed' : (validate strict program.bare).result = .error failure' := by
      rw [validate, Reducer.validate, Reducer.visit_of_error { strict := strict } hrun']
    refine .inr ?_
    cases halike with
    | code hcode => exact .inl ⟨_, _, hfailed, hfailed', hcode⟩
    | same =>
      cases accountable_validate (fun hnone ↦ hnone rfl) hspelled hfailed with
      | semantic error => exact .inl ⟨error, error, hfailed, hfailed', rfl⟩
      | digits _ hexcessive => exact .inr ⟨_, hexcessive, hfailed, hfailed'⟩

/-- The program `let x: int = (y + ((2))); -(x);`. -/
def enclosedProgram : Tree :=
  .program
    [.declaration .let_ (some "x") (.basicType .int)
      (.parenthesized (.arith .sum (.identifier (some "y"))
        (.parenthesized (.parenthesized (.literal (some "2")))))),
     .statement (.negation (.parenthesized (.identifier (some "x"))))]

/-- The reduced program, in which parentheses are left around the sum and the name. -/
def enclosedReduced : Tree :=
  .program
    [.declaration .let_ (some "x") (.basicType .int)
      (.parenthesized (.arith .sum (.identifier (some "y")) (.integer 2))),
     .statement (.negation (.parenthesized (.identifier (some "x"))))]

theorem validate_bare_enclosed :
    (validate false enclosedProgram).result = .ok enclosedReduced ∧
      ∃ reduced, (validate false enclosedProgram.bare).result = .ok reduced ∧
        enclosedReduced.bare = reduced.bare ∧
        (validate false enclosedProgram).reducer.table.bare =
          (validate false enclosedProgram.bare).reducer.table.bare := by
  have hresult : (validate false enclosedProgram).result = .ok enclosedReduced := rfl
  have hspelled : enclosedProgram.Spelled (· ≠ none) := by
    simp [enclosedProgram, Tree.Spelled, Tree.AllSpelled]
  have hwalked : (validate false enclosedProgram).result ≠ .error (.semantic .tooDeep) := by
    rw [hresult]
    intro hcontrary
    cases hcontrary
  rcases validate_bare hspelled hwalked with
    ⟨reduced, reduced', hok, hok', hsame, htable⟩ | ⟨error, _, herror, -, -⟩ | ⟨text, -, herror, -⟩
  · cases hresult.symm.trans hok
    exact ⟨hresult, reduced', hok', hsame, htable⟩
  · cases hresult.symm.trans herror
  · cases hresult.symm.trans herror

/-- A literal in parentheses as the only statement of a program. -/
def enclosedLiteral (lexeme : Lexeme) : Tree :=
  .program [.statement (.parenthesized (.literal lexeme))]

theorem validate_enclosedLiteral {lexeme : Lexeme} {failure : ReductionFailure}
    (hfailure : resolveLexeme lexeme none = .error failure) (strict : Bool) :
    (validate strict (enclosedLiteral lexeme)).result = .error failure := by
  have hliteral : ∀ levels state, Reduction.reduce strict (levels + 1) none (.literal lexeme) state =
      .error failure state := by
    intro levels state
    rw [Reduction.reduce, Reduction.literal, hfailure]
    rfl
  have hrun : Reduction.reduce strict Reduction.depthLimit none (enclosedLiteral lexeme) {} =
      .error failure {} :=
    Run.bind_of_error (Run.bind_of_error (Run.bind_of_error (Run.bind_of_error
      (hliteral (Reduction.depthLimit - 4) {}))))
  rw [validate, Reducer.validate, Reducer.visit_of_error { strict := strict } hrun]

/-- More zeros than are converted are not converted in parentheses either. -/
theorem validate_of_enclosedZeros {count : Nat} (hcount : digitLimit < count) :
    (∀ strict, (validate strict (enclosedLiteral (some (String.ofList (zeros count))))).result =
        .error (.tooManyDigits count)) ∧
      ∀ strict, (validate strict (enclosedLiteral (some (String.ofList (zeros count)))).bare).result =
        .error (.tooManyDigits count) := by
  have hzeros : resolveLexeme (some (String.ofList (zeros count))) none =
      .error (.tooManyDigits count) := resolveLiteral_zeros hcount
  exact ⟨validate_enclosedLiteral hzeros, validate_literal hzeros⟩

/-- In both modes, with the parentheses and without, the reduction of 4301 zeros fails, and not with a
semantic error. -/
theorem validate_bare_zeros :
    (∀ strict, (validate strict (enclosedLiteral (some (String.ofList (zeros 4301))))).result =
        .error (.tooManyDigits 4301)) ∧
      ∀ strict, (validate strict (enclosedLiteral (some (String.ofList (zeros 4301)))).bare).result =
        .error (.tooManyDigits 4301) :=
  validate_of_enclosedZeros (by decide)

end LetLang
