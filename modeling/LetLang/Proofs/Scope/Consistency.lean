import LetLang.Scope.Table
import Mathlib.Data.List.Infix

/-!
# The table of names stays consistent

A table is changed by opening a scope, closing one and declaring a name (`Table.Move`). What is done
to it is made of these and of contexts: a body that runs in a scope of its own and may fail inside
it, and a body whose failure is caught (`Table.Action`). However the actions are ordered and nested,
the table goes through the states that their moves lead to, one after the other, where a context
opens its scope before the moves of its body and closes one after them, also when the body failed
(`Table.perform_eq`).

In every state that can be reached in this way, no frame has a name without a binding
(`Table.Filled`). The ways of asking for a name, by the latest binding and by all bindings of the
innermost frame that has it, then agree (`Table.Consistent`). A body that closes no
scope that it did not open works on the frame of its context and on what lies above it, so that the
frames below it are found again as they were (`Table.withScope_perform`).
-/

set_option autoImplicit false

namespace LetLang.Table

/-! ### What can be done to a table -/

/-- A change of the table. -/
inductive Move
  /-- Opens a scope. -/
  | push
  /-- Closes the innermost scope, if there is one. -/
  | pop
  /-- Records a binding of a name. -/
  | declare (name : Lexeme) (binding : Binding)

/-- What can be done to a table. -/
inductive Action
  /-- One change. -/
  | move (move : Move)
  /-- Fails. -/
  | fail
  /-- Does several things in a scope of their own. -/
  | scope (body : List Action)
  /-- Does several things and goes on if one of them fails. -/
  | attempt (body : List Action)

/-- How actions end. -/
inductive Ending
  | returned
  | failed

/-- The table after a change. -/
def apply (table : Table) : Move → Table
  | .push => table.push
  | .pop => table.pop
  | .declare name binding => table.declare name binding

/-- The table after changes. -/
def applyAll (table : Table) (moves : List Move) : Table := moves.foldl apply table

mutual

/-- Does one thing to a table. -/
def act : Action → Table → Ending × Table
  | .move move, table => (.returned, table.apply move)
  | .fail, table => (.failed, table)
  | .scope body, table => table.withScope (perform body)
  | .attempt body, table => (.returned, (perform body table).2)

/-- Does one thing after the other to a table, up to the first that fails. -/
def perform : List Action → Table → Ending × Table
  | [], table => (.returned, table)
  | action :: rest, table =>
    match act action table with
    | (.failed, after) => (.failed, after)
    | (.returned, after) => perform rest after

end

/-! ### The moves that are made -/

mutual

/-- How an action ends, and the moves that it makes. -/
def movesOf : Action → Ending × List Move
  | .move move => (.returned, [move])
  | .fail => (.failed, [])
  | .scope body =>
    let (ending, moves) := movesOfAll body
    (ending, .push :: (moves ++ [.pop]))
  | .attempt body => (.returned, (movesOfAll body).2)

/-- How actions end, and the moves that they make up to there. -/
def movesOfAll : List Action → Ending × List Move
  | [] => (.returned, [])
  | action :: rest =>
    match movesOf action with
    | (.failed, moves) => (.failed, moves)
    | (.returned, moves) =>
      let (ending, more) := movesOfAll rest
      (ending, moves ++ more)

end

theorem applyAll_append (table : Table) (first second : List Move) :
    table.applyAll (first ++ second) = (table.applyAll first).applyAll second :=
  List.foldl_append

mutual

theorem act_eq (action : Action) (table : Table) :
    act action table = ((movesOf action).1, table.applyAll (movesOf action).2) := by
  match action with
  | .move move => rfl
  | .fail => rfl
  | .scope body =>
    have hbody := perform_eq body table.push
    rw [act, movesOf, withScope, hbody]
    change _ = (_, table.push.applyAll ((movesOfAll body).2 ++ [.pop]))
    rw [applyAll_append]
    rfl
  | .attempt body => rw [act, movesOf, perform_eq body table]

/-- Actions make their moves, and nothing else changes the table. -/
theorem perform_eq (actions : List Action) (table : Table) :
    perform actions table = ((movesOfAll actions).1, table.applyAll (movesOfAll actions).2) := by
  match actions with
  | [] => rfl
  | action :: rest =>
    rw [perform, act_eq action table, movesOfAll]
    rcases movesOf action with ⟨ending, moves⟩
    cases ending with
    | failed => rfl
    | returned =>
      change perform rest (table.applyAll moves) = _
      rw [perform_eq rest, ← applyAll_append]

end

/-! ### No name without a binding -/

/-- No frame has a name without a binding. -/
def Filled (table : Table) : Prop :=
  ∀ frame ∈ table.frames, ∀ entry ∈ frame, entry.2 ≠ []

theorem ne_nil_of_mem_add {frame : Frame} (hframe : ∀ entry ∈ frame, entry.2 ≠ []) (name : Lexeme)
    (binding : Binding) : ∀ entry ∈ Frame.add name binding frame, entry.2 ≠ [] := by
  induction frame with
  | nil => simp [Frame.add]
  | cons first rest ih =>
    obtain ⟨hfirst, hrest⟩ := List.forall_mem_cons.mp hframe
    unfold Frame.add
    split
    · exact List.forall_mem_cons.mpr ⟨by simp, hrest⟩
    · exact List.forall_mem_cons.mpr ⟨hfirst, ih hrest⟩

/-- A move keeps a table filled. -/
theorem Filled.apply {table : Table} (htable : table.Filled) (move : Move) :
    (table.apply move).Filled := by
  cases move with
  | push => exact List.forall_mem_cons.mpr ⟨by simp, htable⟩
  | pop => exact fun frame hframe ↦ htable frame (List.mem_of_mem_tail hframe)
  | declare name binding =>
    change (table.declare name binding).Filled
    unfold declare
    split
    · exact List.forall_mem_cons.mpr ⟨ne_nil_of_mem_add (by simp) name binding, by simp⟩
    · next frame outer hframes =>
      rw [Filled, hframes] at htable
      obtain ⟨hframe, houter⟩ := List.forall_mem_cons.mp htable
      exact List.forall_mem_cons.mpr ⟨ne_nil_of_mem_add hframe name binding, houter⟩

/-- Moves keep a table filled. -/
theorem Filled.applyAll {table : Table} (htable : table.Filled) (moves : List Move) :
    (table.applyAll moves).Filled := by
  induction moves generalizing table with
  | nil => exact htable
  | cons move moves ih => exact ih (htable.apply move)

/-- The bindings that a frame has for a name are some. -/
theorem ne_nil_of_lookup {frame : Frame} (hframe : ∀ entry ∈ frame, entry.2 ≠ []) {name : Lexeme}
    {bindings : List Binding} (hlookup : frame.lookup name = some bindings) : bindings ≠ [] := by
  obtain ⟨before, behind, hentry, -⟩ := List.lookup_eq_some_iff.mp hlookup
  exact hframe (name, bindings) (by rw [hentry]; simp)

/-- The innermost frame that has a name is the innermost in which the name has a binding. -/
theorem findSome?_getLast? {frames : List Frame}
    (hframes : ∀ frame ∈ frames, ∀ entry ∈ frame, entry.2 ≠ []) (name : Lexeme) :
    (frames.findSome? fun frame ↦ (frame.lookup name).bind List.getLast?) =
      (frames.findSome? fun frame ↦ frame.lookup name).bind List.getLast? := by
  induction frames with
  | nil => rfl
  | cons frame frames ih =>
    obtain ⟨hframe, hrest⟩ := List.forall_mem_cons.mp hframes
    cases hlookup : frame.lookup name with
    | none => simp only [List.findSome?_cons, hlookup, Option.bind_none, ih hrest]
    | some bindings =>
      have hlast := List.getLast?_eq_some_getLast (ne_nil_of_lookup hframe hlookup)
      simp only [List.findSome?_cons, hlookup, Option.bind_some, hlast]

/-- What a name means is the last of its bindings. -/
theorem Filled.lookup?_eq {table : Table} (htable : table.Filled) (name : Lexeme) :
    table.lookup? name = (table.bindings name).getLast? := by
  rw [lookup?, findSome?_getLast? htable, bindings]
  cases table.frames.findSome? fun frame ↦ frame.lookup name <;> rfl

/-- The ways of asking a table for a name agree. -/
structure Consistent (table : Table) : Prop where
  filled : ∀ frame ∈ table.frames, ∀ entry ∈ frame, entry.2 ≠ []
  latest : ∀ name, table.lookup? name = (table.bindings name).getLast?
  unknown : ∀ name, table.lookup? name = none ↔ table.bindings name = []
  known : ∀ name, table.contains name = true ↔ table.bindings name ≠ []

theorem Filled.consistent {table : Table} (htable : table.Filled) : table.Consistent := by
  have hunknown : ∀ name, table.lookup? name = none ↔ table.bindings name = [] := fun name ↦ by
    rw [htable.lookup?_eq, List.getLast?_eq_none_iff]
  refine ⟨htable, htable.lookup?_eq, hunknown, fun name ↦ ?_⟩
  rw [contains, Option.isSome_iff_ne_none, Ne, hunknown]

/-! ### A scope is left as it was entered -/

/-- Whether a move opens a scope. -/
def Move.isPush : Move → Bool
  | push => true
  | _ => false

/-- Whether a move closes a scope. -/
def Move.isPop : Move → Bool
  | pop => true
  | _ => false

/-- At no point were more scopes closed than opened, and in the end as many. -/
structure Balanced (moves : List Move) : Prop where
  never : ∀ front, front <+: moves → front.countP Move.isPop ≤ front.countP Move.isPush
  settled : moves.countP Move.isPop = moves.countP Move.isPush

instance (moves : List Move) : Decidable (Balanced moves) :=
  decidable_of_iff
    ((∀ front ∈ moves.inits, front.countP Move.isPop ≤ front.countP Move.isPush) ∧
      moves.countP Move.isPop = moves.countP Move.isPush)
    ⟨fun h ↦ ⟨fun front hfront ↦ h.1 front (List.mem_inits front moves |>.mpr hfront), h.2⟩,
      fun h ↦ ⟨fun front hfront ↦ h.never front (List.mem_inits front moves |>.mp hfront), h.settled⟩⟩

/-- A move that finds more than one scope above the outer ones, or does not close any, leaves the
outer ones alone and at least one above them. -/
theorem exists_inner_apply {move : Move} {table : Table} {inner outer : List Frame} {spare : Nat}
    (hframes : table.frames = inner ++ outer) (hinner : inner.length = spare + 1)
    (hmove : [move].countP Move.isPop ≤ spare + [move].countP Move.isPush) :
    ∃ left : List Frame, (table.apply move).frames = left ++ outer ∧ left ≠ [] ∧
      left.length + [move].countP Move.isPop = inner.length + [move].countP Move.isPush := by
  obtain ⟨frame, others, rfl⟩ := List.exists_cons_of_length_eq_add_one hinner
  cases move with
  | push => exact ⟨[] :: frame :: others, by simp [apply, push, hframes], by simp, rfl⟩
  | pop =>
    have hothers : 0 < others.length := by
      have hspare : 1 ≤ spare + 0 := hmove
      rw [List.length_cons] at hinner
      omega
    exact ⟨others, by simp [apply, pop, hframes], List.length_pos_iff.mp hothers, rfl⟩
  | declare name binding =>
    exact ⟨Frame.add name binding frame :: others, by simp [apply, declare, hframes], by simp, rfl⟩

/-- Moves that close no more scopes than they find above the outer ones leave the outer ones alone.
The induction carries the number of scopes above: there is always one more than the moves may
close, so a declaration finds its frame among them. -/
theorem exists_inner_applyAll {moves : List Move} {table : Table} {inner outer : List Frame}
    (spare : Nat) (hframes : table.frames = inner ++ outer) (hinner : inner.length = spare + 1)
    (hnever : ∀ front, front <+: moves →
      front.countP Move.isPop ≤ spare + front.countP Move.isPush) :
    ∃ left : List Frame, (table.applyAll moves).frames = left ++ outer ∧
      left.length + moves.countP Move.isPop = inner.length + moves.countP Move.isPush := by
  induction moves generalizing table inner spare with
  | nil => exact ⟨inner, hframes, rfl⟩
  | cons move moves ih =>
    have hmove := hnever [move] (by simp)
    obtain ⟨middle, hmiddle, hne, hstep⟩ := exists_inner_apply hframes hinner hmove
    have hpositive := List.length_pos_iff.mpr hne
    have hlater : ∀ front, front <+: moves →
        front.countP Move.isPop ≤ middle.length - 1 + front.countP Move.isPush := by
      intro front hfront
      have hboth := hnever ([move] ++ front) (List.cons_prefix_cons.mpr ⟨rfl, hfront⟩)
      rw [List.countP_append, List.countP_append] at hboth
      omega
    obtain ⟨left, hleft, hrun⟩ := ih (middle.length - 1) hmiddle (by omega) hlater
    refine ⟨left, hleft, ?_⟩
    rw [← List.singleton_append, List.countP_append, List.countP_append]
    omega

/-- A balanced body leaves a table, after the scope that it ran in, as it was before. -/
theorem withScope_perform (table : Table) {body : List Action}
    (hbody : Balanced (movesOfAll body).2) :
    (table.withScope (perform body)).2.frames = table.frames := by
  have hframes : table.push.frames = [[]] ++ table.frames := rfl
  obtain ⟨left, hleft, hlength⟩ := exists_inner_applyAll 0 hframes rfl
    fun front hfront ↦ by simpa using hbody.never front hfront
  have hsingle : left.length = 1 := by
    rw [hbody.settled, List.length_singleton] at hlength
    omega
  obtain ⟨frame, rfl⟩ := List.length_eq_one_iff.mp hsingle
  rw [withScope, perform_eq]
  change (table.push.applyAll _).frames.tail = _
  rw [hleft]
  rfl

/-! ### Any run -/

/-- Along every run, from a table without scopes, each state that the table goes through has a
binding for every name of a frame, and a name means the last of its bindings: it means nothing
exactly if it has none, and is contained in the table exactly if it has some. A scope with a
balanced body leaves every table as it was, whether the body returns or fails. -/
theorem consistent_perform (actions : List Action) :
    perform actions {} =
      ((movesOfAll actions).1, ({} : Table).applyAll (movesOfAll actions).2) ∧
    (∀ front, front <+: (movesOfAll actions).2 → (({} : Table).applyAll front).Consistent) ∧
    ∀ (table : Table) (body : List Action), Balanced (movesOfAll body).2 →
      (table.withScope (perform body)).2.frames = table.frames := by
  have hempty : ({} : Table).Filled := by simp [Filled]
  exact ⟨perform_eq actions {}, fun front _ ↦ (hempty.applyAll front).consistent,
    fun table body ↦ withScope_perform table⟩

/-- A body that opens a scope, declares a name in a scope inside it and again in its own, closes it
and then fails: the name is known while the body runs, and a table without scopes has none
afterwards. -/
theorem consistent_perform_failing :
    let body : List Action :=
      [.move .push, .scope [.move (.declare (some "x") ⟨false, .basicType .int, .integer 1⟩)],
        .move (.declare (some "x") ⟨true, .basicType .int, .integer 2⟩), .move .pop, .fail]
    let during := ({} : Table).applyAll ((movesOfAll body).2.take 5)
    (movesOfAll body).1 = .failed ∧ Balanced (movesOfAll body).2 ∧
      (({} : Table).withScope (perform body)).2.frames = [] ∧
      (movesOfAll body).2.take 5 <+: (movesOfAll body).2 ∧ during.contains (some "x") = true := by
  intro body during
  have hbody : Balanced (movesOfAll body).2 := by decide
  have hfront : (movesOfAll body).2.take 5 <+: (movesOfAll body).2 := List.take_prefix _ _
  have hduring : during.Consistent := (consistent_perform body).2.1 _ hfront
  have hbindings : during.bindings (some "x") ≠ [] := List.cons_ne_nil _ _
  exact ⟨rfl, hbody, (consistent_perform body).2.2 {} body hbody, hfront,
    (hduring.known (some "x")).mpr hbindings⟩

end LetLang.Table
