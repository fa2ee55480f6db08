/-!
# Runs of stateful programs

The parser, the reduction and the compilation are programs on a state that may fail. Here is how the
run of two such programs, one after the other, follows from the runs of each.
-/

set_option autoImplicit false

namespace LetLang.Run

variable {ε σ α β : Type} {first : EStateM ε σ α} {next : α → EStateM ε σ β} {before after : σ}

theorem bind_of_ok {value : α} (hfirst : first before = .ok value after) :
    (first >>= next) before = next value after := by
  change EStateM.bind first next before = next value after
  rw [EStateM.bind, hfirst]

theorem bind_of_error {failure : ε} (hfirst : first before = .error failure after) :
    (first >>= next) before = .error failure after := by
  change EStateM.bind first next before = .error failure after
  rw [EStateM.bind, hfirst]

/-- What comes first may run in another way, if it ends alike. -/
theorem bind_congr {first' : EStateM ε σ α} {before' : σ} (hfirst : first before = first' before') :
    (first >>= next) before = (first' >>= next) before' := by
  change EStateM.bind first next before = EStateM.bind first' next before'
  rw [EStateM.bind, EStateM.bind, hfirst]

/-- What comes next may be another program, if it runs alike wherever the first ends. -/
theorem bind_congr_next {next' : α → EStateM ε σ β}
    (hnext : ∀ value after, first before = .ok value after → next value after = next' value after) :
    (first >>= next) before = (first >>= next') before := by
  cases hfirst : first before with
  | ok value after => rw [bind_of_ok hfirst, bind_of_ok hfirst, hnext value after hfirst]
  | error failure after => rw [bind_of_error hfirst, bind_of_error hfirst]

theorem exists_of_bind_eq_ok {result : β} (hrun : (first >>= next) before = .ok result after) :
    ∃ value middle, first before = .ok value middle ∧ next value middle = .ok result after := by
  change EStateM.bind first next before = .ok result after at hrun
  unfold EStateM.bind at hrun
  split at hrun
  · next value middle hvalue => exact ⟨value, middle, hvalue, hrun⟩
  · cases hrun

theorem of_bind_eq_error {failure : ε} (hrun : (first >>= next) before = .error failure after) :
    first before = .error failure after ∨
      ∃ value middle, first before = .ok value middle ∧ next value middle = .error failure after := by
  change EStateM.bind first next before = .error failure after at hrun
  unfold EStateM.bind at hrun
  split at hrun
  · next value middle hvalue => exact .inr ⟨value, middle, hvalue, hrun⟩
  · next fault middle hfault =>
    cases hrun
    exact .inl hfault

theorem get_bind {next : σ → EStateM ε σ β} : (get >>= next) before = next before before := rfl

/-- The program returns, if it does, something with the property. -/
def Returns (property : α → Prop) (program : EStateM ε σ α) : Prop :=
  ∀ before value after, program before = .ok value after → property value

namespace Returns

variable {property : β → Prop}

theorem pure {value : β} (hvalue : property value) :
    Returns property (Pure.pure value : EStateM ε σ β) := by
  intro before found after hrun
  cases hrun
  exact hvalue

theorem throw (failure : ε) : Returns property (throwThe ε failure : EStateM ε σ β) := by
  intro before found after hrun
  cases hrun

theorem bind (hnext : ∀ value, Returns property (next value)) : Returns property (first >>= next) := by
  intro before found after hrun
  obtain ⟨value, middle, -, hlast⟩ := exists_of_bind_eq_ok hrun
  exact hnext value middle found after hlast

/-- One after the other: what the second returns may depend on what the first returned. -/
theorem andThen {held : α → Prop} (hfirst : Returns held first)
    (hnext : ∀ value, held value → Returns property (next value)) :
    Returns property (first >>= next) := by
  intro before found after hrun
  obtain ⟨value, middle, hvalue, hlast⟩ := exists_of_bind_eq_ok hrun
  exact hnext value (hfirst before value middle hvalue) middle found after hlast

theorem mapM {body : α → EStateM ε σ β} {items : List α}
    (hbody : ∀ item ∈ items, Returns property (body item)) :
    Returns (fun values ↦ ∀ value ∈ values, property value) (items.mapM body) := by
  induction items with
  | nil =>
    rw [List.mapM_nil]
    exact pure (List.forall_mem_nil _)
  | cons item items ih =>
    rw [List.mapM_cons]
    refine (hbody item List.mem_cons_self).andThen fun first hfirst ↦ ?_
    refine (ih fun other hother ↦ hbody other (List.mem_cons_of_mem item hother)).andThen ?_
    exact fun rest hrest ↦ pure (List.forall_mem_cons.mpr ⟨hfirst, hrest⟩)

end Returns

end LetLang.Run
