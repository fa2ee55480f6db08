import LetLang.Proofs.Meaning.Expectation
import LetLang.Proofs.Syntax.NodeLines

/-!
# Reduced trees are formed

The reduction puts values in the place of literals, and otherwise leaves every node its standing,
its names and its types: what it returns for a formed tree is formed (`returns_formed`). So a program
that was parsed and reduced is formed, and the lines of its table of names are as printable as those
of the program itself (`escapeless_ofStatements`).
-/

set_option autoImplicit false

namespace LetLang

open Run Text

/-! ### Reduction -/

theorem Number.formed_tree (number : Number) : number.tree.Formed .reduced .expression := by
  cases number with
  | int value => exact .integer value
  | float value => exact .float value

section

variable {strict : Bool} {left right factor : Tree}

theorem returns_formed_compute (op : ArithOp) (first second : Number) :
    Returns (Tree.Formed .reduced .expression) (Reduction.compute op first second) := by
  unfold Reduction.compute
  split
  · exact .bind fun _ ↦ .pure (Number.formed_tree _)
  · exact .throw _

theorem returns_formed_arith (op : ArithOp) (hleft : left.Formed .reduced .expression)
    (hright : right.Formed .reduced .expression) :
    Returns (Tree.Formed .reduced .expression) (Reduction.arith strict op left right) := by
  rcases Reduction.arith_cases strict op left right with ⟨first, second, -, -, hcompute⟩ | hkept
  · rw [hcompute]
    exact returns_formed_compute op first second
  · obtain ⟨-, operand, hkept⟩ := hkept
    rw [hkept]
    split
    · exact .throw _
    · exact .pure (.arith hleft hright)

theorem returns_formed_negation (hfactor : factor.Formed .reduced .expression) :
    Returns (Tree.Formed .reduced .expression) (Reduction.negation strict factor) := by
  rcases Reduction.negation_cases strict factor with ⟨number, -, hnegated⟩ | ⟨-, hkept⟩
  · rw [hnegated]
    exact .pure (Number.formed_tree _)
  · rw [hkept]
    split
    · exact .throw _
    · exact .pure (.negation hfactor)

theorem formed_parenthesized (hfactor : factor.Formed .reduced .expression) :
    (Reduction.parenthesized factor).Formed .reduced .expression := by
  unfold Reduction.parenthesized
  split
  · exact hfactor
  · exact .parenthesized hfactor

theorem returns_formed_literal (expected? : Option Tree) (lexeme : Lexeme) :
    Returns (Tree.Formed .reduced .expression) (Reduction.literal expected? lexeme) := by
  unfold Reduction.literal
  split
  · exact .pure (Number.formed_tree _)
  · exact .throw _

end

/-- A place that may be empty is filled after the reduction only if it was before. -/
theorem returns_formed_ifPresent {body : Tree → Reduction Tree} {tree : Tree} {standing : Standing}
    (hbody : tree.isPresent = true → Returns (Tree.Formed .reduced standing) (body tree)) :
    Returns (fun found ↦ found.isPresent = true → found.Formed .reduced standing)
      (Reduction.ifPresent body tree) := by
  unfold Reduction.ifPresent
  split
  · next hpresent =>
    intro before found after hrun hfound
    exact hbody hpresent before found after hrun
  · refine .pure fun hpresent ↦ ?_
    cases hpresent

/-- The reduction of a formed tree returns one of the same standing. The induction is on the levels
that the reduction may go down. -/
theorem returns_formed (strict : Bool) (levels : Nat) :
    ∀ (expected? : Option Tree) {standing : Standing} {tree : Tree}, tree.Formed .written standing →
      Returns (Tree.Formed .reduced standing) (Reduction.reduce strict levels expected? tree) := by
  induction levels with
  | zero => exact fun expected? standing tree _ ↦ .throw _
  | succ levels ih =>
    intro expected? standing tree hformed
    have hrow : ∀ (expected? : Option Tree) {standing : Standing} {trees : List Tree},
        (∀ tree ∈ trees, tree.Formed .written standing) →
          Returns (∀ tree ∈ ·, tree.Formed .reduced standing)
            (trees.mapM (Reduction.reduce strict levels expected?)) :=
      fun expected? standing trees htrees ↦ .mapM fun tree htree ↦ ih expected? (htrees tree htree)
    cases hformed with
    | program hstatements =>
      exact (hrow expected? hstatements).andThen fun statements hstatements ↦
        .pure (.program hstatements)
    | @declaration _ keyword name type value hname htype hvalue =>
      refine (ih (some type) hvalue).andThen fun value hvalue ↦ ?_
      exact .bind fun _ ↦ .pure (.declaration hname htype hvalue)
    | assignment hname hvalue =>
      refine .bind fun state ↦ (ih _ hvalue).andThen fun value hvalue ↦ ?_
      exact .pure (.assignment hname hvalue)
    | statement hexpression =>
      exact (ih none hexpression).andThen fun expression hexpression ↦ .pure (.statement hexpression)
    | @arith _ op left right hleft hright =>
      refine (ih expected? hleft).andThen fun left hleft ↦ ?_
      exact (ih expected? hright).andThen fun right hright ↦ returns_formed_arith op hleft hright
    | comparison hleft hright =>
      refine (ih none hleft).andThen fun left hleft ↦ ?_
      exact (ih none hright).andThen fun right hright ↦ .pure (.comparison hleft hright)
    | call hname harguments =>
      exact (hrow none harguments).andThen fun arguments harguments ↦ .pure (.call hname harguments)
    | block hstatements hresult =>
      refine returns_inScope ((hrow expected? hstatements).andThen fun statements hstatements ↦ ?_)
      refine (returns_formed_ifPresent fun hpresent ↦ ih expected? (hresult hpresent)).andThen ?_
      exact fun result hresult ↦ .pure (.block hstatements hresult)
    | branch hcondition hbody =>
      refine (ih none hcondition).andThen fun condition hcondition ↦ ?_
      exact (ih expected? hbody).andThen fun body hbody ↦ .pure (.branch hcondition hbody)
    | conditional hcondition hbody hbranches hotherwise =>
      refine (ih none hcondition).andThen fun condition hcondition ↦ ?_
      refine (ih expected? hbody).andThen fun body hbody ↦ ?_
      refine (hrow expected? hbranches).andThen fun branches hbranches ↦ ?_
      refine (returns_formed_ifPresent fun hpresent ↦ ih expected? (hotherwise hpresent)).andThen ?_
      exact fun otherwise hotherwise ↦
        .pure (.conditional hcondition hbody hbranches hotherwise)
    | negation hfactor =>
      exact (ih expected? hfactor).andThen fun factor hfactor ↦ returns_formed_negation hfactor
    | parenthesized hexpression =>
      exact (ih expected? hexpression).andThen fun inner hinner ↦ .pure (formed_parenthesized hinner)
    | identifier hname => exact .pure (.identifier hname)
    | literal htext => exact returns_formed_literal expected? _

theorem formed_validate {strict : Bool} {program reduced : Tree}
    (hformed : program.Formed .written .program)
    (hreduced : (validate strict program).result = .ok reduced) :
    reduced.Formed .reduced .program := by
  obtain ⟨after, hrun⟩ := exists_of_validate_eq_ok hreduced
  exact returns_formed strict Reduction.depthLimit none hformed _ _ _ hrun

/-! ### The table of names -/

theorem placed_of_parse {tokens : List Token} {program : Tree} (hparse : parse tokens = .ok program) :
    program.placedProgram = true := by
  rw [parse_eq_predict] at hparse
  exact (predict_sound hparse).1.placed

/-- A program that consists of statements leaves the table of its reduced statements. -/
theorem table_eq_ofStatements {strict : Bool} {program reduced : Tree}
    (hplaced : program.placedProgram = true)
    (hreduced : (validate strict program).result = .ok reduced) :
    ∃ statements, reduced = .program statements ∧
      (validate strict program).reducer.table = Table.ofStatements statements := by
  cases program with
  | program statements =>
    cases hrun : reduceStatements strict statements {} with
    | ok found after =>
      obtain ⟨hresult, htable⟩ := validate_of_ok hrun
      rw [hresult] at hreduced
      cases hreduced
      exact ⟨found, rfl, htable.trans (table_of_reduceStatements hplaced hrun)⟩
    | error failure after =>
      rw [(validate_of_error hrun).1] at hreduced
      cases hreduced
  | _ => cases hplaced

/-- A name and its binding are printable. -/
def LegibleEntry (entry : Lexeme × Binding) : Prop :=
  Printable (Lexeme.shown entry.1) ∧ Printable entry.2.text

theorem legible_of_declared? {statement : Tree} {entry : Lexeme × Binding}
    (hformed : statement.Formed .reduced .statement) (hentry : statement.declared? = some entry) :
    LegibleEntry entry := by
  cases hformed with
  | @declaration _ keyword name type value hname htype hvalue =>
    cases hentry
    have hkeyword : Printable (if keyword.isMutable = true then "mut" else "let") := by
      cases keyword <;> decide
    have hclass : Printable value.className :=
      value.className_letters.2.mono fun c hc ↦ isPrintable_of_isAlpha hc
    refine ⟨hname.plain.printable, ?_⟩
    simp only [Binding.text, over_append]
    refine ⟨⟨⟨⟨hkeyword, by decide⟩, htype.printable⟩, by decide⟩, ?_⟩
    cases value.number? with
    | none => exact hclass
    | some number => exact number.printable_text
  | _ => cases hentry

theorem printable_frameLines {bindings : List (Lexeme × Binding)}
    (hbindings : ∀ entry ∈ bindings, LegibleEntry entry) :
    ∀ line ∈ Table.frameLines (Frame.ofBindings bindings), Printable line := by
  intro line hline
  obtain ⟨⟨name, found⟩, hentry, hline⟩ := List.mem_flatMap.mp hline
  obtain ⟨binding, hbinding, rfl⟩ := List.mem_map.mp hline
  obtain ⟨_, -, hsame⟩ := List.mem_map.mp hentry
  cases hsame
  -- the bindings of a name are those of the entries with this name
  obtain ⟨entry, hfiltered, rfl⟩ := List.mem_map.mp hbinding
  obtain ⟨hmem, hname⟩ := List.mem_filter.mp hfiltered
  obtain ⟨hshown, htext⟩ := hbindings entry hmem
  rw [of_decide_eq_true hname] at hshown
  simp only [over_append]
  exact ⟨⟨⟨by decide, hshown⟩, by decide⟩, htext⟩

/-- The table of formed statements is shown in printable lines. -/
theorem escapeless_ofStatements {statements : List Tree}
    (hformed : ∀ statement ∈ statements, statement.Formed .reduced .statement) :
    Escapeless (Table.ofStatements statements).text := by
  refine escapeless_intercalate ?_
  rw [Table.ofStatements]
  split
  · exact List.forall_mem_nil _
  · have hentries : ∀ entry ∈ statements.filterMap Tree.declared?, LegibleEntry entry := by
      intro entry hentry
      obtain ⟨statement, hmem, hdeclared⟩ := List.mem_filterMap.mp hentry
      exact legible_of_declared? (hformed statement hmem) hdeclared
    rw [List.reverse_singleton, Table.linesFrom, Table.linesFrom, List.append_nil]
    exact List.forall_mem_cons.mpr ⟨by decide, printable_frameLines hentries⟩

end LetLang
