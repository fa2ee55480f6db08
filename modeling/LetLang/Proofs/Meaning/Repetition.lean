import LetLang.Proofs.Meaning.NormalForm

/-!
# Reducing a reduced program

To reduce a program that was already reduced, in the same mode, gives the same program and the same
table of names (`validate_reduced`).

The second reduction is followed along the first. Wherever the first one came with a table, the
second one comes with that table and goes on to the table that the first one went on to (`Arrives`).
It finds no literals, so the types that are expected do not matter to it, and arithmetic that was
kept is kept again. Where arithmetic was carried out, the second reduction finds a number and has
nothing to do; nor had the first one done anything to the table there, since no declaration is left
behind by a tree that reduces to a number (`Steady.number`).
-/

set_option autoImplicit false

namespace LetLang

/-! ### Reductions between tables -/

/-- From every state with the first table the reduction returns the value and leaves the second
table. -/
def Arrives {α : Type} (reduction : Reduction α) (value : α) (first second : Table) : Prop :=
  ∀ state : ReductionState, state.table = first →
    ∃ later, reduction state = .ok value later ∧ later.table = second

namespace Arrives

variable {α β : Type} {value : α} {result : β} {first second third : Table}

theorem pure (value : α) (table : Table) : Arrives (Pure.pure value) value table table :=
  fun state htable ↦ ⟨state, rfl, htable⟩

theorem bind {reduction : Reduction α} {next : α → Reduction β}
    (hreduction : Arrives reduction value first second)
    (hnext : Arrives (next value) result second third) :
    Arrives (reduction >>= next) result first third := by
  intro state htable
  obtain ⟨middle, hrun, hmiddle⟩ := hreduction state htable
  obtain ⟨later, hlast, hlater⟩ := hnext middle hmiddle
  exact ⟨later, (Run.bind_of_ok hrun).trans hlast, hlater⟩

theorem get_bind {next : ReductionState → Reduction β}
    (hnext : ∀ state, Arrives (next state) result first second) :
    Arrives (MonadState.get >>= next) result first second :=
  fun state htable ↦ hnext state state htable

theorem declare (table : Table) (name : Lexeme) (binding : Binding) :
    Arrives (modify (·.declare name binding) : Reduction Unit) ⟨⟩ table
      (table.declare name binding) := by
  rintro state rfl
  exact ⟨state.declare name binding, rfl, ReductionState.table_declare state name binding⟩

theorem inScope {body : Reduction α} (hbody : Arrives body value first.push second) :
    Arrives (Reduction.inScope body) value first second.pop := by
  rintro state rfl
  obtain ⟨middle, hrun, rfl⟩ := hbody state.enter rfl
  refine ⟨middle.leave, ?_, ReductionState.table_leave middle⟩
  rw [Reduction.inScope, hrun]

end Arrives

/-! ### What is found again -/

/-- What a reduction returned is there, is returned again by a reduction of it between the same
tables, and is no number unless the table stayed as it was. -/
structure Steady (strict : Bool) (levels : Nat) (reduced : Tree) (first second : Table) : Prop where
  present : reduced.isPresent = true
  again : ∀ expected?,
    Arrives (Reduction.reduce strict levels expected? reduced) reduced first second
  number : reduced.isNumber = true → second = first

variable {strict : Bool} {levels : Nat}

theorem steady_number (number : Number) (table : Table) :
    Steady strict (levels + 1) number.tree table table := by
  cases number with
  | int value => exact ⟨rfl, fun _ ↦ .pure _ table, fun _ ↦ rfl⟩
  | float value => exact ⟨rfl, fun _ ↦ .pure _ table, fun _ ↦ rfl⟩

theorem Reduction.exists_of_compute_eq_ok {op : ArithOp} {left right : Number} {reduced : Tree}
    {before after : ReductionState}
    (hrun : Reduction.compute op left right before = .ok reduced after) :
    after.table = before.table ∧ ∃ number : Number, reduced = number.tree := by
  unfold Reduction.compute at hrun
  cases hresult : op.apply left right with
  | ok result =>
    rw [hresult] at hrun
    cases hrun
    exact ⟨rfl, result, rfl⟩
  | error error =>
    rw [hresult] at hrun
    cases hrun

theorem Number.isNumber_tree (number : Number) : number.tree.isNumber = true := by
  cases number <;> rfl

theorem steady_arith {op : ArithOp} {left right reduced : Tree} {first second : Table}
    {before after : ReductionState} (hleft : Steady strict levels left first second)
    (hright : Steady strict levels right second before.table)
    (hrun : Reduction.arith strict op left right before = .ok reduced after) :
    Steady strict (levels + 1) reduced first after.table := by
  rcases Reduction.arith_cases strict op left right with
    ⟨leftNumber, rightNumber, rfl, rfl, hcompute⟩ | ⟨-, operand, hkept⟩
  · rw [hcompute] at hrun
    obtain ⟨htable, number, rfl⟩ := Reduction.exists_of_compute_eq_ok hrun
    rw [htable, hright.number rightNumber.isNumber_tree, hleft.number leftNumber.isNumber_tree]
    exact steady_number number first
  · rw [hkept] at hrun
    cases hstrict : strict with
    | true =>
      rw [hstrict] at hrun
      cases hrun
    | false =>
      subst hstrict
      cases hrun
      refine ⟨rfl, fun expected? ↦ (hleft.again expected?).bind ((hright.again expected?).bind ?_),
        fun hnumber ↦ nomatch hnumber⟩
      rw [hkept]
      exact .pure _ _

theorem steady_negation {factor reduced : Tree} {first : Table} {before after : ReductionState}
    (hfactor : Steady strict levels factor first before.table)
    (hrun : Reduction.negation strict factor before = .ok reduced after) :
    Steady strict (levels + 1) reduced first after.table := by
  rcases Reduction.negation_cases strict factor with ⟨number, rfl, hnegated⟩ | ⟨-, hkept⟩
  · rw [hnegated] at hrun
    cases hrun
    rw [hfactor.number number.isNumber_tree]
    exact steady_number number.negated first
  · rw [hkept] at hrun
    cases strict with
    | true => cases hrun
    | false =>
      cases hrun
      refine ⟨rfl, fun expected? ↦ (hfactor.again expected?).bind ?_, fun hnumber ↦ nomatch hnumber⟩
      rw [hkept]
      exact .pure _ _

theorem steady_parenthesized {inner : Tree} {first second : Table}
    (hinner : Steady strict levels inner first second) :
    Steady strict (levels + 1) (Reduction.parenthesized inner) first second := by
  cases hnumber : inner.isNumber with
  | true =>
    rw [Reduction.parenthesized, if_pos hnumber, hinner.number hnumber]
    cases inner with
    | integer value => exact steady_number (.int value) first
    | float value => exact steady_number (.float value) first
    | _ => cases hnumber
  | false =>
    have hkept : Reduction.parenthesized inner = .parenthesized inner := by
      rw [Reduction.parenthesized, hnumber]
      rfl
    rw [hkept]
    refine ⟨rfl, fun expected? ↦ (hinner.again expected?).bind ?_, fun hnumber ↦ nomatch hnumber⟩
    rw [hkept]
    exact .pure _ _

theorem steady_literal {expected? : Option Tree} {lexeme : Lexeme} {reduced : Tree}
    {before after : ReductionState}
    (hrun : Reduction.literal expected? lexeme before = .ok reduced after) :
    Steady strict (levels + 1) reduced before.table after.table := by
  unfold Reduction.literal at hrun
  cases hnumber : resolveLexeme lexeme expected? with
  | ok number =>
    rw [hnumber] at hrun
    cases hrun
    exact steady_number number before.table
  | error failure =>
    rw [hnumber] at hrun
    cases hrun

/-! ### Rows of trees and optional places -/

theorem arrives_mapM {body again : Tree → Reduction Tree}
    (hbody : ∀ {tree reduced before after}, body tree before = .ok reduced after →
      Arrives (again reduced) reduced before.table after.table)
    {trees reduced : List Tree} {before after : ReductionState}
    (hrun : trees.mapM body before = .ok reduced after) :
    Arrives (reduced.mapM again) reduced before.table after.table := by
  induction trees generalizing before reduced with
  | nil =>
    cases hrun
    exact .pure _ _
  | cons tree trees ih =>
    rw [List.mapM_cons] at hrun
    obtain ⟨first, middle, hfirst, hrun⟩ := Run.exists_of_bind_eq_ok hrun
    obtain ⟨rest, last, hrest, hpure⟩ := Run.exists_of_bind_eq_ok hrun
    cases hpure
    rw [List.mapM_cons]
    exact (hbody hfirst).bind ((ih hrest).bind (.pure _ _))

theorem arrives_ifPresent {expected? : Option Tree} {tree reduced : Tree}
    {before after : ReductionState}
    (hsteady : ∀ {reduced after}, Reduction.reduce strict levels expected? tree before =
      .ok reduced after → Steady strict levels reduced before.table after.table)
    (hrun : Reduction.ifPresent (Reduction.reduce strict levels expected?) tree before =
      .ok reduced after) (another? : Option Tree) :
    Arrives (Reduction.ifPresent (Reduction.reduce strict levels another?) reduced) reduced
      before.table after.table := by
  unfold Reduction.ifPresent at hrun ⊢
  split at hrun
  · have hreduced := hsteady hrun
    rw [if_pos hreduced.present]
    exact hreduced.again another?
  · cases hrun
    exact .pure _ _

/-! ### Trees -/

/-- What a reduction returns is steady. The induction is on the levels that the reduction may go
down, which are as many for the reduced tree. -/
theorem steady_reduce (strict : Bool) (levels : Nat) : ∀ {expected? : Option Tree}
    {tree reduced : Tree} {before after : ReductionState},
    Reduction.reduce strict levels expected? tree before = .ok reduced after →
      Steady strict levels reduced before.table after.table := by
  induction levels with
  | zero =>
    intro expected? tree reduced before after hrun
    cases hrun
  | succ levels ih =>
    intro expected? tree reduced before after hrun
    have hrow : ∀ {expected? : Option Tree} {trees reduced : List Tree}
        {before after : ReductionState},
        trees.mapM (Reduction.reduce strict levels expected?) before = .ok reduced after →
          ∀ another?, Arrives (reduced.mapM (Reduction.reduce strict levels another?)) reduced
            before.table after.table :=
      fun hrun another? ↦ arrives_mapM (fun hrun ↦ (ih hrun).again another?) hrun
    cases tree with
    | absent => cases hrun
    | program statements =>
      obtain ⟨statements, middle, hstatements, hpure⟩ := Run.exists_of_bind_eq_ok hrun
      cases hpure
      exact ⟨rfl, fun expected? ↦ (hrow hstatements expected?).bind (.pure _ _), fun h ↦ nomatch h⟩
    | declaration keyword name type value =>
      obtain ⟨value, middle, hvalue, hrest⟩ := Run.exists_of_bind_eq_ok hrun
      cases hrest
      rw [ReductionState.table_declare]
      exact ⟨rfl, fun _ ↦ ((ih hvalue).again (some type)).bind
        ((Arrives.declare _ name _).bind (.pure _ _)), fun h ↦ nomatch h⟩
    | assignment name value =>
      rw [Reduction.reduce, Run.get_bind] at hrun
      obtain ⟨value, middle, hvalue, hpure⟩ := Run.exists_of_bind_eq_ok hrun
      cases hpure
      exact ⟨rfl, fun _ ↦ .get_bind fun state ↦ ((ih hvalue).again _).bind (.pure _ _),
        fun h ↦ nomatch h⟩
    | statement expression =>
      obtain ⟨expression, middle, hexpression, hpure⟩ := Run.exists_of_bind_eq_ok hrun
      cases hpure
      exact ⟨rfl, fun _ ↦ ((ih hexpression).again none).bind (.pure _ _), fun h ↦ nomatch h⟩
    | arith op left right =>
      obtain ⟨left, middle, hleft, hrun⟩ := Run.exists_of_bind_eq_ok hrun
      obtain ⟨right, last, hright, hrun⟩ := Run.exists_of_bind_eq_ok hrun
      exact steady_arith (ih hleft) (ih hright) hrun
    | comparison left op right =>
      obtain ⟨left, middle, hleft, hrun⟩ := Run.exists_of_bind_eq_ok hrun
      obtain ⟨right, last, hright, hpure⟩ := Run.exists_of_bind_eq_ok hrun
      cases hpure
      exact ⟨rfl, fun _ ↦ ((ih hleft).again none).bind (((ih hright).again none).bind (.pure _ _)),
        fun h ↦ nomatch h⟩
    | call name arguments =>
      obtain ⟨arguments, middle, harguments, hpure⟩ := Run.exists_of_bind_eq_ok hrun
      cases hpure
      exact ⟨rfl, fun _ ↦ (hrow harguments none).bind (.pure _ _), fun h ↦ nomatch h⟩
    | block statements result =>
      obtain ⟨inner, hbody, htable⟩ := Reduction.exists_of_inScope_eq_ok hrun
      obtain ⟨statements, middle, hstatements, hrun⟩ := Run.exists_of_bind_eq_ok hbody
      obtain ⟨result, last, hresult, hpure⟩ := Run.exists_of_bind_eq_ok hrun
      cases hpure
      rw [htable]
      exact ⟨rfl, fun expected? ↦ .inScope ((hrow hstatements expected?).bind
        ((arrives_ifPresent ih hresult expected?).bind (.pure _ _))), fun h ↦ nomatch h⟩
    | branch condition body =>
      obtain ⟨condition, middle, hcondition, hrun⟩ := Run.exists_of_bind_eq_ok hrun
      obtain ⟨body, last, hbody, hpure⟩ := Run.exists_of_bind_eq_ok hrun
      cases hpure
      exact ⟨rfl, fun expected? ↦ ((ih hcondition).again none).bind
        (((ih hbody).again expected?).bind (.pure _ _)), fun h ↦ nomatch h⟩
    | conditional condition body branches otherwise =>
      obtain ⟨condition, first, hcondition, hrun⟩ := Run.exists_of_bind_eq_ok hrun
      obtain ⟨body, second, hbody, hrun⟩ := Run.exists_of_bind_eq_ok hrun
      obtain ⟨branches, third, hbranches, hrun⟩ := Run.exists_of_bind_eq_ok hrun
      obtain ⟨otherwise, last, hotherwise, hpure⟩ := Run.exists_of_bind_eq_ok hrun
      cases hpure
      exact ⟨rfl, fun expected? ↦ ((ih hcondition).again none).bind
        (((ih hbody).again expected?).bind ((hrow hbranches expected?).bind
          ((arrives_ifPresent ih hotherwise expected?).bind (.pure _ _)))), fun h ↦ nomatch h⟩
    | negation factor =>
      obtain ⟨factor, middle, hfactor, hrun⟩ := Run.exists_of_bind_eq_ok hrun
      exact steady_negation (ih hfactor) hrun
    | parenthesized expression =>
      obtain ⟨inner, middle, hinner, hpure⟩ := Run.exists_of_bind_eq_ok hrun
      cases hpure
      exact steady_parenthesized (ih hinner)
    | literal lexeme => exact steady_literal hrun
    | identifier | integer | float | basicType | functionType | parameter =>
      cases hrun
      exact ⟨rfl, fun _ ↦ .pure _ _, fun _ ↦ rfl⟩

/-! ### Programs -/

/-- A reduced program reduces to itself, with the same table. -/
theorem validate_reduced {strict : Bool} {program reduced : Tree}
    (hreduced : (validate strict program).result = .ok reduced) :
    (validate strict reduced).result = .ok reduced ∧
      (validate strict reduced).reducer.table = (validate strict program).reducer.table := by
  obtain ⟨after, hrun⟩ := exists_of_validate_eq_ok hreduced
  obtain ⟨later, hagain, htable⟩ := (steady_reduce strict _ hrun).again none {} rfl
  rw [validate, Reducer.validate, Reducer.visit_of_ok { strict := strict } hagain,
    validate, Reducer.validate, Reducer.visit_of_ok { strict := strict } hrun]
  exact ⟨rfl, htable⟩

/-- The program `let x: int = {let y: int = 2; y + -(3)}; -(x); 5 - 4;`, in which 5 and 4 are
numbers already. -/
def repeatedProgram : Tree :=
  .program
    [.declaration .let_ (some "x") (.basicType .int)
      (.block [.declaration .let_ (some "y") (.basicType .int) (.literal (some "2"))]
        (.arith .sum (.identifier (some "y")) (.negation (.parenthesized (.literal (some "3")))))),
     .statement (.negation (.parenthesized (.identifier (some "x")))),
     .statement (.arith .difference (.integer 5) (.integer 4))]

/-- The value of `x` in the reduced program; the sum has a name in it and is kept. -/
def repeatedValue : Tree :=
  .block [.declaration .let_ (some "y") (.basicType .int) (.integer 2)]
    (.arith .sum (.identifier (some "y")) (.integer (-3)))

/-- The reduced program. -/
def repeatedReduced : Tree :=
  .program
    [.declaration .let_ (some "x") (.basicType .int) repeatedValue,
     .statement (.negation (.parenthesized (.identifier (some "x")))),
     .statement (.integer 1)]

theorem validate_reduced_block :
    (validate false repeatedProgram).result = .ok repeatedReduced ∧
      (validate false repeatedReduced).result = .ok repeatedReduced ∧
      (validate false repeatedReduced).reducer.table =
        ⟨[[(some "x", [⟨false, .basicType .int, repeatedValue⟩])]]⟩ := by
  have hreduced : (validate false repeatedProgram).result = .ok repeatedReduced := rfl
  obtain ⟨hagain, htable⟩ := validate_reduced hreduced
  exact ⟨hreduced, hagain, htable⟩

end LetLang
