import LetLang.Proofs.Meaning.Reduction
import LetLang.Proofs.Scope.Declarations

/-!
# The normal form of reduced programs

A reduced program has no literals; it has no parentheses, no change of sign and no arithmetic that
could still be carried out, and all its integers are 64-bit ones (`Tree.Settled`). The same is true
of every value in the table of names (`settled_validate`).

This is said of every node, wherever it stands in the tree (`Tree.Everywhere`). The reduction does
not enter types, so what holds of the nodes inside of a type is what held before: a place for a type
has to hold one (`Tree.Proper`). All else may be any tree, as long as its integers are 64-bit ones.
-/

set_option autoImplicit false

namespace LetLang

/-! ### The nodes of a tree -/

/-- The places for nodes directly below a node, in order, the empty ones included. -/
def Tree.places (tree : Tree) : List Tree := tree.fields.flatMap fun field => field.value.places

/-- A node is part of a tree: it is the tree, or part of a tree directly below it. -/
inductive Tree.PartOf (node : Tree) : Tree → Prop
  | itself : PartOf node node
  | inner {child tree : Tree} (hchild : child ∈ tree.children) (hpart : PartOf node child) :
      PartOf node tree

/-- Every node of a tree has the property. -/
def Tree.Everywhere (property : Tree → Prop) (tree : Tree) : Prop :=
  ∀ node, Tree.PartOf node tree → property node

namespace Tree

variable {property : Tree → Prop}

theorem everywhere_absent_iff : Everywhere property absent ↔ property absent := by
  refine ⟨fun hall ↦ hall absent .itself, fun habsent node hpart ↦ ?_⟩
  cases hpart with
  | itself => exact habsent
  | inner hchild _ => cases hchild

/-- A property that an empty place has holds everywhere if it holds of the node at the top and
everywhere in the places below it. -/
theorem everywhere_iff (habsent : property absent) {tree : Tree} (places : List Tree)
    (hplaces : tree.places = places) :
    tree.Everywhere property ↔ property tree ∧ ∀ place ∈ places, place.Everywhere property := by
  subst hplaces
  constructor
  · refine fun hall ↦ ⟨hall tree .itself, fun place hplace ↦ ?_⟩
    cases hpresent : place.isPresent with
    | true =>
      have hchild : place ∈ tree.children := List.mem_filter.mpr ⟨hplace, hpresent⟩
      exact fun node hpart ↦ hall node (.inner hchild hpart)
    | false =>
      obtain rfl : place = absent := by cases place <;> first | rfl | cases hpresent
      exact everywhere_absent_iff.mpr habsent
  · rintro ⟨htree, hplaces⟩ node hpart
    cases hpart with
    | itself => exact htree
    | inner hchild hpart => exact hplaces _ (List.mem_filter.mp hchild).1 node hpart

/-- What a node has, and passes on to the nodes below it, all nodes have. -/
theorem everywhere_of_passes {tree : Tree} (htree : property tree)
    (hpasses : tree.Everywhere fun node ↦
      property node → ∀ child ∈ node.children, property child) :
    tree.Everywhere property := by
  intro node hpart
  induction hpart with
  | itself => exact htree
  | inner hchild _ ih =>
    refine ih (hpasses _ .itself htree _ hchild) fun node hpart ↦ ?_
    exact hpasses node (.inner hchild hpart)

end Tree

/-! ### Trees before and after a reduction -/

namespace Tree

/-- Whether a node is a type or a parameter of one. -/
def isTypePart : Tree → Bool
  | basicType _ | functionType .. | parameter .. => true
  | _ => false

/-- The places for types below a node hold types, and the parameters of a function type hold parts
of types. -/
def Proper : Tree → Prop
  | declaration _ _ type _ => type.isType = true
  | functionType parameters result =>
    (∀ parameter ∈ parameters, parameter.isTypePart = true) ∧ result.isType = true
  | parameter _ type => type.isType = true
  | _ => True

/-- A node at which a reduction has nothing left to do: it is no literal, an integer is a 64-bit
one, parentheses are not around a number and, unless the reduction is strict and leaves none, a sign
does not stand before a number and an operation is not one on two numbers. -/
def Settled (strict : Bool) : Tree → Prop
  | literal _ => False
  | integer value => int64Min ≤ value ∧ value ≤ int64Max
  | parenthesized expression => expression.isNumber = false
  | negation factor => strict = false ∧ factor.isNumber = false
  | arith _ left right => strict = false ∧ ¬ (left.isNumber = true ∧ right.isNumber = true)
  | _ => True

/-- What is asked of a node before the reduction. -/
structure Ready (node : Tree) : Prop where
  proper : node.Proper
  fits : ∀ value, node = integer value → int64Min ≤ value ∧ value ≤ int64Max

theorem ready_absent : Ready absent := ⟨trivial, fun _ hinteger ↦ nomatch hinteger⟩

theorem ready_places {tree : Tree} (hready : tree.Everywhere Ready) (places : List Tree)
    (hplaces : tree.places = places) : ∀ place ∈ places, place.Everywhere Ready :=
  ((everywhere_iff ready_absent places hplaces).mp hready).2

theorem isTypePart_of_isType {tree : Tree} (htype : tree.isType = true) :
    tree.isTypePart = true := by
  cases tree <;> first | rfl | cases htype

theorem isTypePart_children {node : Tree} (hproper : node.Proper) (hpart : node.isTypePart = true) :
    ∀ child ∈ node.children, child.isTypePart = true := by
  intro child hchild
  have hplace := (List.mem_filter.mp hchild).1
  cases node with
  | basicType name => cases hplace
  | functionType parameters result =>
    simp only [fields, FieldValue.places, List.flatMap_cons, List.flatMap_nil, List.append_nil,
      List.mem_append, List.mem_singleton] at hplace
    rcases hplace with hparameter | rfl
    · exact hproper.1 child hparameter
    · exact isTypePart_of_isType hproper.2
  | parameter name type =>
    simp only [fields, FieldValue.places, List.flatMap_cons, List.flatMap_nil, List.append_nil,
      List.nil_append, List.mem_singleton] at hplace
    rw [hplace]
    exact isTypePart_of_isType hproper
  | _ => cases hpart

/-- A type is left as it is, and has nothing in it that is not part of a type. -/
theorem settled_of_isTypePart {strict : Bool} {tree : Tree} (hpart : tree.isTypePart = true)
    (hready : tree.Everywhere Ready) : tree.Everywhere (Settled strict) := by
  have hparts : tree.Everywhere fun node ↦ node.isTypePart = true :=
    everywhere_of_passes hpart fun node hnode ↦ isTypePart_children (hready node hnode).proper
  intro node hnode
  have hnodePart := hparts node hnode
  cases node with
  | basicType | functionType | parameter => trivial
  | _ => cases hnodePart

end Tree

theorem wrapInt64_bounds (value : Int) :
    int64Min ≤ wrapInt64 value ∧ wrapInt64 value ≤ int64Max := by
  simp only [wrapInt64, int64Min, int64Max, int64Count]
  omega

/-- A number that is a double or a 64-bit integer. -/
def Number.Fits : Number → Prop
  | int value => int64Min ≤ value ∧ value ≤ int64Max
  | float _ => True

theorem Number.Fits.settled {number : Number} (hfits : number.Fits) (strict : Bool) :
    number.tree.Everywhere (Tree.Settled strict) := by
  cases number with
  | int value => exact (Tree.everywhere_iff trivial [] rfl).mpr ⟨hfits, List.forall_mem_nil _⟩
  | float value => exact (Tree.everywhere_iff trivial [] rfl).mpr ⟨trivial, List.forall_mem_nil _⟩

theorem Number.fits_negated (number : Number) : number.negated.Fits := by
  cases number with
  | int value => exact wrapInt64_bounds _
  | float value => trivial

theorem ArithOp.fits_of_apply {op : ArithOp} {left right result : Number}
    (happly : op.apply left right = .ok result) : result.Fits := by
  cases left with
  | int left =>
    cases right with
    | int right =>
      simp only [ArithOp.apply] at happly
      split at happly
      · cases happly
      · cases happly
        exact wrapInt64_bounds _
    | float right => cases happly
  | float left =>
    cases right with
    | int right => cases happly
    | float right =>
      cases happly
      trivial

theorem fits_of_resolveLexeme {lexeme : Lexeme} {expected? : Option Tree} {number : Number}
    (hnumber : resolveLexeme lexeme expected? = .ok number) : number.Fits := by
  cases lexeme with
  | none => cases hnumber
  | some text =>
    simp only [resolveLexeme, resolveLiteral] at hnumber
    split at hnumber
    · cases hnumber
    split at hnumber
    · cases hnumber
      trivial
    split at hnumber
    · rw [resolveInteger] at hnumber
      split_ifs at hnumber with _ _ hrange
      cases hnumber
      exact ⟨by simp only [int64Min]; omega, Int.not_lt.mp hrange⟩
    · split at hnumber
      · cases hnumber
      · cases hnumber
        trivial

/-! ### The table of names -/

/-- Every node of every value in the table has the property. -/
def Table.Everywhere (property : Tree → Prop) (table : Table) : Prop :=
  ∀ frame ∈ table.frames, ∀ entry ∈ frame, ∀ binding ∈ entry.2,
    binding.value.Everywhere property

namespace Table.Everywhere

variable {property : Tree → Prop} {table : Table}

theorem push (htable : table.Everywhere property) : table.push.Everywhere property :=
  List.forall_mem_cons.mpr ⟨List.forall_mem_nil _, htable⟩

theorem pop (htable : table.Everywhere property) : table.pop.Everywhere property :=
  fun frame hframe ↦ htable frame (List.mem_of_mem_tail hframe)

theorem add {frame : Frame} {name : Lexeme} {binding : Binding}
    (hbinding : binding.value.Everywhere property)
    (hframe : ∀ entry ∈ frame, ∀ other ∈ entry.2, other.value.Everywhere property) :
    ∀ entry ∈ Frame.add name binding frame, ∀ other ∈ entry.2,
      other.value.Everywhere property := by
  induction frame with
  | nil => simpa [Frame.add] using hbinding
  | cons first rest ih =>
    obtain ⟨hfirst, hrest⟩ := List.forall_mem_cons.mp hframe
    rw [Frame.add]
    split
    · refine List.forall_mem_cons.mpr ⟨List.forall_mem_append.mpr ⟨hfirst, ?_⟩, hrest⟩
      exact List.forall_mem_singleton.mpr hbinding
    · exact List.forall_mem_cons.mpr ⟨hfirst, ih hrest⟩

theorem declare {binding : Binding} (htable : table.Everywhere property) (name : Lexeme)
    (hbinding : binding.value.Everywhere property) :
    (table.declare name binding).Everywhere property := by
  rw [Table.declare]
  split
  · exact List.forall_mem_singleton.mpr (add hbinding (List.forall_mem_nil _))
  · next frame outer hframes =>
    rw [Table.Everywhere, hframes] at htable
    obtain ⟨hframe, houter⟩ := List.forall_mem_cons.mp htable
    exact List.forall_mem_cons.mpr ⟨add hbinding hframe, houter⟩

end Table.Everywhere

/-! ### Steps of a reduction -/

theorem Tree.isNumber_eq_isSome (tree : Tree) : tree.isNumber = tree.number?.isSome := by
  cases tree <;> rfl

namespace Reduction

/-- Arithmetic on reduced operands is carried out on two numbers; otherwise it is kept, or stops at
an operand in the strict mode. -/
theorem arith_cases (strict : Bool) (op : ArithOp) (left right : Tree) :
    (∃ leftNumber rightNumber, left = Number.tree leftNumber ∧ right = Number.tree rightNumber ∧
      arith strict op left right = compute op leftNumber rightNumber) ∨
    ¬ (left.isNumber = true ∧ right.isNumber = true) ∧
      ∃ operand, arith strict op left right =
        if strict = true then fail (.irreducible op.operation operand)
        else Pure.pure (.arith op left right) := by
  rw [arith, left.isNumber_eq_isSome, right.isNumber_eq_isSome]
  cases hleft : left.number? with
  | none => exact .inr ⟨by simp, left, rfl⟩
  | some leftNumber =>
    cases hright : right.number? with
    | none => exact .inr ⟨by simp, right, rfl⟩
    | some rightNumber =>
      exact .inl ⟨leftNumber, rightNumber, Tree.eq_tree_of_number? hleft,
        Tree.eq_tree_of_number? hright, rfl⟩

/-- The sign of a number is changed; before anything else it is kept, or stops the strict mode. -/
theorem negation_cases (strict : Bool) (factor : Tree) :
    (∃ number, factor = Number.tree number ∧
      negation strict factor = Pure.pure number.negated.tree) ∨
    factor.isNumber = false ∧
      negation strict factor =
        if strict = true then fail (.irreducible "negation" factor)
        else Pure.pure (.negation factor) := by
  rw [negation, factor.isNumber_eq_isSome]
  cases hfactor : factor.number? with
  | none => exact .inr ⟨rfl, rfl⟩
  | some number => exact .inl ⟨number, Tree.eq_tree_of_number? hfactor, rfl⟩

theorem exists_of_inScope_eq_ok {α : Type} {body : Reduction α} {value : α}
    {before after : ReductionState} (hrun : inScope body before = .ok value after) :
    ∃ middle, body before.enter = .ok value middle ∧ after.table = middle.table.pop := by
  unfold inScope at hrun
  split at hrun
  · next found middle hbody =>
    cases hrun
    exact ⟨middle, hbody, ReductionState.table_leave middle⟩
  · cases hrun

end Reduction

/-! ### Reductions that settle what they return -/

/-- Where the table is settled, the reduction returns something with the property, if it returns,
and leaves the table settled. -/
def Settles {α : Type} (strict : Bool) (property : α → Prop) (reduction : Reduction α) : Prop :=
  ∀ before value after, before.table.Everywhere (Tree.Settled strict) →
    reduction before = .ok value after →
      property value ∧ after.table.Everywhere (Tree.Settled strict)

namespace Settles

variable {α β : Type} {strict : Bool} {property : α → Prop} {last : β → Prop}

theorem pure {value : α} (hvalue : property value) :
    Settles strict property (Pure.pure value) := by
  intro before found after htable hrun
  cases hrun
  exact ⟨hvalue, htable⟩

theorem throw (failure : ReductionFailure) :
    Settles strict property (throwThe ReductionFailure failure : Reduction α) := by
  intro before found after htable hrun
  cases hrun

theorem bind {first : Reduction α} {next : α → Reduction β}
    (hfirst : Settles strict property first)
    (hnext : ∀ value, property value → Settles strict last (next value)) :
    Settles strict last (first >>= next) := by
  intro before found after htable hrun
  obtain ⟨value, middle, hvalue, hrest⟩ := Run.exists_of_bind_eq_ok hrun
  obtain ⟨hproperty, hmiddle⟩ := hfirst _ _ _ htable hvalue
  exact hnext value hproperty _ _ _ hmiddle hrest

theorem get : Settles strict (fun _ ↦ True) (MonadState.get : Reduction ReductionState) := by
  intro before found after htable hrun
  cases hrun
  exact ⟨trivial, htable⟩

theorem declare {name : Lexeme} {binding : Binding}
    (hbinding : binding.value.Everywhere (Tree.Settled strict)) :
    Settles strict (fun _ ↦ True) (modify (·.declare name binding) : Reduction Unit) := by
  intro before found after htable hrun
  cases hrun
  rw [ReductionState.table_declare]
  exact ⟨trivial, htable.declare name hbinding⟩

theorem mapM {property : Tree → Prop} {body : Tree → Reduction Tree} {trees : List Tree}
    (hbody : ∀ tree ∈ trees, Settles strict property (body tree)) :
    Settles strict (fun values ↦ ∀ value ∈ values, property value) (trees.mapM body) := by
  induction trees with
  | nil =>
    rw [List.mapM_nil]
    exact pure (List.forall_mem_nil _)
  | cons tree trees ih =>
    obtain ⟨htree, htrees⟩ := List.forall_mem_cons.mp hbody
    rw [List.mapM_cons]
    refine bind htree fun first hfirst ↦ bind (ih htrees) fun rest hrest ↦ pure ?_
    exact List.forall_mem_cons.mpr ⟨hfirst, hrest⟩

theorem inScope {body : Reduction α} (hbody : Settles strict property body) :
    Settles strict property (Reduction.inScope body) := by
  intro before found after htable hrun
  obtain ⟨middle, hvalue, hafter⟩ := Reduction.exists_of_inScope_eq_ok hrun
  obtain ⟨hproperty, hmiddle⟩ := hbody _ _ _ htable.push hvalue
  rw [hafter]
  exact ⟨hproperty, hmiddle.pop⟩

theorem ifPresent {property : Tree → Prop} {body : Tree → Reduction Tree} {tree : Tree}
    (habsent : property .absent) (hbody : Settles strict property (body tree)) :
    Settles strict property (Reduction.ifPresent body tree) := by
  unfold Reduction.ifPresent
  split
  · exact hbody
  · exact pure habsent

end Settles

/-! ### Trees -/

/-- A tree that is settled everywhere, as a reduction returns it. -/
abbrev SettledTree (strict : Bool) (tree : Tree) : Prop := tree.Everywhere (Tree.Settled strict)

theorem settledTree_of_places {strict : Bool} {tree : Tree} (places : List Tree)
    (hplaces : tree.places = places) (htree : tree.Settled strict)
    (hsettled : ∀ place ∈ places, SettledTree strict place) : SettledTree strict tree :=
  (Tree.everywhere_iff trivial places hplaces).mpr ⟨htree, hsettled⟩

section

variable {strict : Bool} {left right factor : Tree}

theorem settles_compute (op : ArithOp) (first second : Number) :
    Settles strict (SettledTree strict) (Reduction.compute op first second) := by
  unfold Reduction.compute
  split
  · next result hresult =>
    intro before found after htable hrun
    cases hrun
    exact ⟨(ArithOp.fits_of_apply hresult).settled strict, htable⟩
  · exact .throw _

/-- Arithmetic on settled operands is carried out or, where it is kept, is not on two numbers. -/
theorem settles_arith (op : ArithOp) (hleft : SettledTree strict left)
    (hright : SettledTree strict right) :
    Settles strict (SettledTree strict) (Reduction.arith strict op left right) := by
  rcases Reduction.arith_cases strict op left right with
    ⟨first, second, -, -, hcompute⟩ | ⟨hnumbers, operand, hkept⟩
  · rw [hcompute]
    exact settles_compute op first second
  · rw [hkept]
    split
    · exact .throw _
    · next hlenient =>
      exact .pure (settledTree_of_places [left, right] rfl
        ⟨eq_false_of_ne_true hlenient, hnumbers⟩ (by simp [hleft, hright]))

theorem settles_negation (hfactor : SettledTree strict factor) :
    Settles strict (SettledTree strict) (Reduction.negation strict factor) := by
  rcases Reduction.negation_cases strict factor with
    ⟨number, -, hnegated⟩ | ⟨hnumber, hkept⟩
  · rw [hnegated]
    exact .pure (number.fits_negated.settled strict)
  · rw [hkept]
    split
    · exact .throw _
    · next hlenient =>
      exact .pure (settledTree_of_places [factor] rfl
        ⟨eq_false_of_ne_true hlenient, hnumber⟩ (by simp [hfactor]))

theorem settledTree_parenthesized (hfactor : SettledTree strict factor) :
    SettledTree strict (Reduction.parenthesized factor) := by
  unfold Reduction.parenthesized
  split
  · exact hfactor
  · next hnumber =>
    exact settledTree_of_places [factor] rfl (eq_false_of_ne_true hnumber) (by simp [hfactor])

theorem settles_literal (expected? : Option Tree) (lexeme : Lexeme) :
    Settles strict (SettledTree strict) (Reduction.literal expected? lexeme) := by
  unfold Reduction.literal
  split
  · next number hnumber => exact .pure ((fits_of_resolveLexeme hnumber).settled strict)
  · exact .throw _

end

/-- Trees whose places for types hold types and whose integers are 64-bit ones are settled by their
reduction. The induction is on the levels that the reduction may go down. -/
theorem settles_reduce (strict : Bool) (levels : Nat) : ∀ (expected? : Option Tree) {tree : Tree},
    tree.Everywhere Tree.Ready →
      Settles strict (SettledTree strict) (Reduction.reduce strict levels expected? tree) := by
  induction levels with
  | zero => exact fun expected? tree _ ↦ .throw _
  | succ levels ih =>
    intro expected? tree hready
    have hrow : ∀ (expected? : Option Tree) {trees : List Tree}, (∀ place ∈ trees,
        place.Everywhere Tree.Ready) → Settles strict (∀ place ∈ ·, SettledTree strict place)
          (trees.mapM (Reduction.reduce strict levels expected?)) :=
      fun expected? trees htrees ↦ .mapM fun place hplace ↦ ih expected? (htrees place hplace)
    have hoptional : ∀ (expected? : Option Tree) {tree : Tree}, tree.Everywhere Tree.Ready →
        Settles strict (SettledTree strict)
          (Reduction.ifPresent (Reduction.reduce strict levels expected?) tree) :=
      fun expected? tree htree ↦
        .ifPresent (settledTree_of_places [] rfl trivial (List.forall_mem_nil _))
          (ih expected? htree)
    cases tree with
    | absent => exact .throw _
    | program statements =>
      have hplaces := Tree.ready_places hready statements (List.append_nil statements)
      refine .bind (hrow expected? hplaces) fun statements hstatements ↦ ?_
      exact .pure
        (settledTree_of_places statements (List.append_nil statements) trivial hstatements)
    | declaration keyword name type value =>
      have hplaces := Tree.ready_places hready [type, value] rfl
      have htype : SettledTree strict type :=
        Tree.settled_of_isTypePart (Tree.isTypePart_of_isType (hready _ .itself).proper)
          (hplaces type (by simp))
      refine .bind (ih (some type) (hplaces value (by simp))) fun value hvalue ↦ ?_
      refine .bind (.declare hvalue) fun _ _ ↦ ?_
      exact .pure (settledTree_of_places [type, value] rfl trivial (by simp [htype, hvalue]))
    | assignment name value =>
      have hplaces := Tree.ready_places hready [value] rfl
      refine .bind .get fun state _ ↦ .bind (ih _ (hplaces value (by simp))) fun value hvalue ↦ ?_
      exact .pure (settledTree_of_places [value] rfl trivial (by simp [hvalue]))
    | statement expression =>
      have hplaces := Tree.ready_places hready [expression] rfl
      refine .bind (ih none (hplaces expression (by simp))) fun expression hexpression ↦ ?_
      exact .pure (settledTree_of_places [expression] rfl trivial (by simp [hexpression]))
    | arith op left right =>
      have hplaces := Tree.ready_places hready [left, right] rfl
      refine .bind (ih expected? (hplaces left (by simp))) fun left hleft ↦ ?_
      refine .bind (ih expected? (hplaces right (by simp))) fun right hright ↦ ?_
      exact settles_arith op hleft hright
    | comparison left op right =>
      have hplaces := Tree.ready_places hready [left, right] rfl
      refine .bind (ih none (hplaces left (by simp))) fun left hleft ↦ ?_
      refine .bind (ih none (hplaces right (by simp))) fun right hright ↦ ?_
      exact .pure (settledTree_of_places [left, right] rfl trivial (by simp [hleft, hright]))
    | call name arguments =>
      have hplaces := Tree.ready_places hready arguments (List.append_nil arguments)
      refine .bind (hrow none hplaces) fun arguments harguments ↦ ?_
      exact .pure (settledTree_of_places arguments (List.append_nil arguments) trivial harguments)
    | block statements result =>
      have hplaces := Tree.ready_places hready (statements ++ [result]) rfl
      obtain ⟨hstatements, hresult⟩ := List.forall_mem_append.mp hplaces
      refine .inScope (.bind (hrow expected? hstatements) fun statements hstatements ↦ ?_)
      refine .bind (hoptional expected? (hresult result (by simp))) fun result hresult ↦ ?_
      refine .pure (settledTree_of_places (statements ++ [result]) rfl trivial ?_)
      exact List.forall_mem_append.mpr ⟨hstatements, by simp [hresult]⟩
    | branch condition body =>
      have hplaces := Tree.ready_places hready [condition, body] rfl
      refine .bind (ih none (hplaces condition (by simp))) fun condition hcondition ↦ ?_
      refine .bind (ih expected? (hplaces body (by simp))) fun body hbody ↦ ?_
      exact .pure
        (settledTree_of_places [condition, body] rfl trivial (by simp [hcondition, hbody]))
    | conditional condition body branches otherwise =>
      have hplaces := Tree.ready_places hready ([condition, body] ++ (branches ++ [otherwise])) rfl
      have hbranches : ∀ branch ∈ branches, branch.Everywhere Tree.Ready :=
        fun branch hbranch ↦ hplaces branch (by simp [hbranch])
      refine .bind (ih none (hplaces condition (by simp))) fun condition hcondition ↦ ?_
      refine .bind (ih expected? (hplaces body (by simp))) fun body hbody ↦ ?_
      refine .bind (hrow expected? hbranches) fun branches hbranches ↦ ?_
      refine .bind (hoptional expected? (hplaces otherwise (by simp))) fun otherwise hotherwise ↦ ?_
      refine .pure
        (settledTree_of_places ([condition, body] ++ (branches ++ [otherwise])) rfl trivial ?_)
      refine List.forall_mem_append.mpr ⟨by simp [hcondition, hbody], ?_⟩
      exact List.forall_mem_append.mpr ⟨hbranches, by simp [hotherwise]⟩
    | negation factor =>
      have hplaces := Tree.ready_places hready [factor] rfl
      exact .bind (ih expected? (hplaces factor (by simp))) fun factor hfactor ↦
        settles_negation hfactor
    | parenthesized expression =>
      have hplaces := Tree.ready_places hready [expression] rfl
      exact .bind (ih expected? (hplaces expression (by simp))) fun inner hinner ↦
        .pure (settledTree_parenthesized hinner)
    | literal lexeme => exact settles_literal expected? lexeme
    | integer value =>
      have hfits : (Number.int value).Fits := (hready _ .itself).fits value rfl
      exact .pure (hfits.settled strict)
    | identifier | float =>
      exact .pure (settledTree_of_places [] rfl trivial (List.forall_mem_nil _))
    | basicType | functionType | parameter =>
      exact .pure (Tree.settled_of_isTypePart rfl hready)

/-! ### Programs -/

/-- A reduced program and the values in its table are settled at every node, if the integers of the
program are 64-bit ones and its places for types hold types. -/
theorem settled_validate {program reduced : Tree} {strict : Bool}
    (hproper : program.Everywhere Tree.Proper)
    (hintegers : ∀ value, Tree.PartOf (.integer value) program →
      int64Min ≤ value ∧ value ≤ int64Max)
    (hreduced : (validate strict program).result = .ok reduced) :
    reduced.Everywhere (Tree.Settled strict) ∧
      (validate strict program).reducer.table.Everywhere (Tree.Settled strict) := by
  have hready : program.Everywhere Tree.Ready := fun node hpart ↦
    ⟨hproper node hpart, fun value hvalue ↦ hintegers value (hvalue ▸ hpart)⟩
  have hempty : ({} : Table).Everywhere (Tree.Settled strict) := List.forall_mem_nil _
  obtain ⟨after, hrun⟩ := exists_of_validate_eq_ok hreduced
  rw [validate, Reducer.validate, Reducer.visit_of_ok { strict := strict } hrun]
  exact settles_reduce strict Reduction.depthLimit none hready _ _ _ hempty hrun

/-- The declaration of `x` as an integer with a given value. -/
def declaringProgram (value : Tree) : Tree :=
  .program [.declaration .let_ (some "x") (.basicType .int) value]

/-- The opposite of the least integer is itself, without the sign and the parentheses. -/
theorem settled_validate_least :
    (validate true (declaringProgram (.negation (.parenthesized (.integer int64Min))))).result =
        .ok (declaringProgram (.integer int64Min)) ∧
      (declaringProgram (.integer int64Min)).Everywhere (Tree.Settled true) := by
  have hreduced : (validate true
      (declaringProgram (.negation (.parenthesized (.integer int64Min))))).result =
        .ok (declaringProgram (.integer int64Min)) := rfl
  have hstep : ∀ {tree : Tree} (places : List Tree), tree.places = places → tree.Ready →
      (∀ place ∈ places, place.Everywhere Tree.Ready) → tree.Everywhere Tree.Ready :=
    fun places hplaces htree hbelow ↦
      (Tree.everywhere_iff Tree.ready_absent places hplaces).mpr ⟨htree, hbelow⟩
  have hvalue : Tree.Everywhere Tree.Ready (.negation (.parenthesized (.integer int64Min))) := by
    refine hstep [_] rfl ⟨trivial, by simp⟩ (List.forall_mem_singleton.mpr ?_)
    refine hstep [_] rfl ⟨trivial, by simp⟩ (List.forall_mem_singleton.mpr ?_)
    refine hstep [] rfl ⟨trivial, fun value hvalue ↦ ?_⟩ (List.forall_mem_nil _)
    cases hvalue
    decide
  have hready : Tree.Everywhere Tree.Ready
      (declaringProgram (.negation (.parenthesized (.integer int64Min)))) := by
    refine hstep [_] rfl ⟨trivial, by simp [declaringProgram]⟩ (List.forall_mem_singleton.mpr ?_)
    refine hstep [.basicType .int, _] rfl ⟨rfl, by simp⟩ ?_
    exact List.forall_mem_cons.mpr ⟨hstep [] rfl ⟨trivial, by simp⟩ (List.forall_mem_nil _),
      List.forall_mem_singleton.mpr hvalue⟩
  exact ⟨hreduced, (settled_validate (fun node hpart ↦ (hready node hpart).proper)
    (fun value hpart ↦ (hready _ hpart).fits value rfl) hreduced).1⟩

end LetLang
