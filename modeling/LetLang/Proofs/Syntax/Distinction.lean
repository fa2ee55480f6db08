import LetLang.Proofs.Syntax.NodeLines
import LetLang.Proofs.Syntax.Outline

/-!
# Different trees are printed differently

A printed tree does not show where the fields of a node end: the statements of a block and its result
follow each other, and so do the branches of a conditional and its last block. It shows no empty
place, and a type only by its text. In a tree that was parsed from a source all of this can be made
out again, so two parsed programs with one text are the same (`parseSource_text_injective`).

The line of a node starts with its class and says its names and its type (`Tree.details`); its level
is how far it is indented. With the line and the nodes below that are printed, the node is known,
because what may stand in one field does not stand in the next
(`Tree.Formed.eq_of_header_eq_of_printed_eq`). The nodes below a node are the ones on the lines up to
the first that is not further in: a list of outlines that ends in front of such a line is determined
by its lines, and so is where it ends (`Tree.eq_of_outlines_append_eq`).
-/

set_option autoImplicit false

namespace LetLang

open Text

/-- Two lists that agree have the same run of elements with a property, and the same rest. -/
theorem eq_of_append_eq_of_stop {α : Type} {property : α → Prop} {front front' rest rest' : List α}
    (hfront : ∀ a ∈ front, property a) (hfront' : ∀ a ∈ front', property a)
    (hrest : ∀ a, rest.head? = some a → ¬ property a)
    (hrest' : ∀ a, rest'.head? = some a → ¬ property a)
    (happend : front ++ rest = front' ++ rest') : front = front' ∧ rest = rest' := by
  induction front generalizing front' with
  | nil =>
    cases front' with
    | nil => exact ⟨rfl, happend⟩
    | cons a more =>
      refine absurd (hfront' a List.mem_cons_self) (hrest a ?_)
      rw [← List.nil_append rest, happend]
      rfl
  | cons a front ih =>
    cases front' with
    | nil =>
      refine absurd (hfront a List.mem_cons_self) (hrest' a ?_)
      rw [← List.nil_append rest', ← happend]
      rfl
    | cons b front' =>
      obtain ⟨rfl, hmore⟩ := List.cons_eq_cons.mp happend
      obtain ⟨rfl, hsame⟩ := ih (List.forall_mem_cons.mp hfront).2
        (List.forall_mem_cons.mp hfront').2 hmore
      exact ⟨rfl, hsame⟩

/-- The same of texts, where a mark that is outside of the alphabet ends the run. -/
theorem Text.eq_of_append_mark_eq {alphabet : Char → Prop} {mark first first' rest rest' : String}
    (hfirst : Over alphabet first) (hfirst' : Over alphabet first') {c : Char}
    (hhead : mark.toList.head? = some c) (hmark : ¬ alphabet c)
    (happend : first ++ (mark ++ rest) = first' ++ (mark ++ rest')) : first = first' ∧ rest = rest' := by
  have hstop : ∀ (rest : String) (d : Char), (mark ++ rest).toList.head? = some d → ¬ alphabet d := by
    intro rest d hd
    rw [String.toList_append, List.head?_append, hhead] at hd
    cases hd
    exact hmark
  have hlists : first.toList ++ (mark ++ rest).toList = first'.toList ++ (mark ++ rest').toList := by
    rw [← String.toList_append, ← String.toList_append, happend]
  obtain ⟨hsame, hrest⟩ :=
    eq_of_append_eq_of_stop hfirst hfirst' (hstop rest) (hstop rest') hlists
  exact ⟨String.toList_inj.mp hsame, (String.append_right_inj _).mp (String.toList_inj.mp hrest)⟩

/-! ### Types and words -/

/-- Tokens derive one type at most. -/
theorem IsType.unique {first second : Tree} {tokens : List Token} (hfirst : IsType first tokens)
    (hsecond : IsType second tokens) : first = second := by
  have hread : ∀ {tree : Tree}, IsType tree tokens →
      tree.nesting ≤ max first.nesting second.nesting →
        Reader.type (tokens ++ []).length (max first.nesting second.nesting) (tokens ++ []) =
          .ok tree [] :=
    fun htree hnesting ↦ (meets_type _ _ htree (Nat.le_refl _)).within hnesting
  have hsame := (hread hfirst (Nat.le_max_left _ _)).symm.trans (hread hsecond (Nat.le_max_right _ _))
  cases hsame
  rfl

/-- A type with names is known from its text. -/
theorem IsNamedType.eq_of_inline_eq {first second : Tree} (hfirst : IsNamedType first)
    (hsecond : IsNamedType second) (hinline : first.inline = second.inline) : first = second := by
  obtain ⟨tokens, hderived, hwritten⟩ := hfirst.written
  obtain ⟨others, hderived', hwritten'⟩ := hsecond.written
  have htokens : tokensOf (first.inline.toList ++ []) = tokens ++ [] :=
    (hwritten lexes_nil endsWord_nil).tokens
  rw [hinline, (hwritten' lexes_nil endsWord_nil).tokens, List.append_nil, List.append_nil] at htokens
  subst htokens
  exact hderived.unique hderived'

theorem CompareOp.text_injective {first second : CompareOp} (htext : first.text = second.text) :
    first = second := by
  revert htext
  cases first <;> cases second <;> decide

theorem DeclKeyword.text_injective {first second : DeclKeyword} (htext : first.text = second.text) :
    first = second := by
  revert htext
  cases first <;> cases second <;> decide

namespace Tree

/-! ### One node -/

/-- The line of a node gives its class and what else is said. -/
theorem eq_of_header_eq {first second : Tree} (hheader : first.header = second.header) :
    first.className = second.className ∧ first.details = second.details := by
  have hstop : ∀ (tree : Tree) (c : Char), tree.details.toList.head? = some c →
      ¬ c.isAlpha = true := by
    intro tree c hc
    rw [head?_details hc]
    decide
  rw [header_eq, header_eq, ← String.toList_inj, String.toList_append, String.toList_append] at hheader
  obtain ⟨hclass, hdetails⟩ := eq_of_append_eq_of_stop first.className_letters.2
    second.className_letters.2 (hstop first) (hstop second) hheader
  exact ⟨String.toList_inj.mp hclass, String.toList_inj.mp hdetails⟩

/-- The classes of nodes, in the order of the constructors; arithmetic has one for each operation. -/
def classNames : List (List String) :=
  [["NoneType"], ["Program"], ["Declaration"], ["Assignment"], ["ExpressionStatement"],
   ["Sum", "Difference", "Product", "Quotient"], ["Comparison"], ["FunctionCall"], ["Block"],
   ["ConditionalBlock"], ["If"], ["NegatedFactor"], ["ParenthesizedExpression"], ["Identifier"],
   ["NumberLiteral"], ["Integer"], ["Float"], ["BasicType"], ["FuncType"], ["Parameter"]]

theorem ctorIdx_eq_findIdx (tree : Tree) :
    tree.ctorIdx = classNames.findIdx (·.contains tree.className) := by
  cases tree with
  | arith op => cases op <;> rfl
  | _ => rfl

theorem arithClass_injective {first second : ArithOp}
    (hclass : arithClass first = arithClass second) : first = second := by
  revert hclass
  cases first <;> cases second <;> decide

/-- The line of a declaration gives its keyword, its name and its type. -/
theorem eq_of_details_declaration {keyword keyword' : DeclKeyword} {name name' : String}
    {type type' value value' : Tree} (hname : IsName name) (hname' : IsName name')
    (htype : IsNamedType type) (htype' : IsNamedType type') (hvalue : value.isType = false)
    (hvalue' : value'.isType = false)
    (hdetails : (declaration keyword (some name) type value).details =
      (declaration keyword' (some name') type' value').details) :
    keyword = keyword' ∧ name = name' ∧ type = type' := by
  have hletters : ∀ keyword : DeclKeyword, Over (·.isAlpha = true) keyword.text := by
    intro keyword
    cases keyword <;> decide
  rw [details_declaration hname.plain htype.isType hvalue,
    details_declaration hname'.plain htype'.isType hvalue', String.append_right_inj] at hdetails
  obtain ⟨hkeyword, hrest⟩ := eq_of_append_mark_eq (hletters keyword) (hletters keyword')
    (c := ',') rfl (by decide) hdetails
  obtain ⟨hsame, hrest⟩ := eq_of_append_mark_eq hname.plain hname'.plain (c := '\'') rfl (by decide)
    hrest
  rw [String.append_left_inj] at hrest
  exact ⟨DeclKeyword.text_injective hkeyword, hsame, htype.eq_of_inline_eq htype' hrest⟩

/-- A tree that was written in a source stands for one thing only. -/
theorem Formed.standing_unique {stage : Stage} {first second : Standing} {tree : Tree}
    (hfirst : tree.Formed stage first) (hsecond : tree.Formed stage second) : first = second := by
  cases hfirst <;> cases hsecond <;> rfl

/-- A place that may be empty is known from what is printed of it. -/
theorem eq_of_filter_isPresent_eq {first second : Tree}
    (hprinted : [first].filter isPresent = [second].filter isPresent) : first = second := by
  have habsent : ∀ {tree : Tree}, ¬ tree.isPresent = true → tree = absent := by
    intro tree hpresent
    cases tree with
    | absent => rfl
    | _ => exact absurd rfl hpresent
  by_cases hfirst : first.isPresent = true
  · by_cases hsecond : second.isPresent = true
    · simpa [hfirst, hsecond] using hprinted
    · simp [hfirst, hsecond] at hprinted
  · by_cases hsecond : second.isPresent = true
    · simp [hfirst, hsecond] at hprinted
    · rw [habsent hfirst, habsent hsecond]

/-- Trees of one standing, followed by an optional tree of another, are known from their row. -/
theorem eq_of_append_place_eq {stage : Stage} {standing other : Standing} {trees trees' : List Tree}
    {last last' : Tree} (hne : standing ≠ other)
    (htrees : ∀ tree ∈ trees, tree.Formed stage standing)
    (htrees' : ∀ tree ∈ trees', tree.Formed stage standing)
    (hlast : last.isPresent = true → last.Formed stage other)
    (hlast' : last'.isPresent = true → last'.Formed stage other)
    (hrow : trees ++ [last].filter isPresent = trees' ++ [last'].filter isPresent) :
    trees = trees' ∧ last = last' := by
  have hstop : ∀ {last : Tree}, (last.isPresent = true → last.Formed stage other) →
      ∀ tree, ([last].filter isPresent).head? = some tree → ¬ tree.Formed stage standing := by
    intro last hlast tree hhead hformed
    obtain ⟨hmem, hpresent⟩ := List.mem_filter.mp (List.mem_of_head? hhead)
    obtain rfl := List.mem_singleton.mp hmem
    exact hne (hformed.standing_unique (hlast hpresent))
  obtain ⟨hsame, hrest⟩ := eq_of_append_eq_of_stop htrees htrees' (hstop hlast) (hstop hlast') hrow
  exact ⟨hsame, eq_of_filter_isPresent_eq hrest⟩

/-- A formed node is known from its line and the nodes that are printed below it. -/
theorem Formed.eq_of_header_eq_of_printed_eq {standing standing' : Standing} {first second : Tree}
    (hfirst : first.Formed .written standing) (hsecond : second.Formed .written standing')
    (hheader : first.header = second.header) (hprinted : first.printed = second.printed) :
    first = second := by
  obtain ⟨hclass, hdetails⟩ := eq_of_header_eq hheader
  have hindex : first.ctorIdx = second.ctorIdx := by
    rw [ctorIdx_eq_findIdx, ctorIdx_eq_findIdx, hclass]
  -- only nodes of one constructor are left to compare
  cases hfirst <;> cases hsecond <;> try cases hindex
  case program.program statements hstatements statements' hstatements' =>
    rw [printed_eq_places statements (List.flatMap_singleton _ _) hstatements,
      printed_eq_places statements' (List.flatMap_singleton _ _) hstatements'] at hprinted
    rw [hprinted]
  case declaration.declaration hname htype hvalue _ _ _ _ hname' htype' hvalue' =>
    obtain ⟨rfl, rfl, rfl⟩ := eq_of_details_declaration hname hname' htype htype' hvalue.isType_eq
      hvalue'.isType_eq hdetails
    rw [printed_declaration htype.isType hvalue, printed_declaration htype.isType hvalue'] at hprinted
    cases hprinted
    rfl
  case assignment.assignment hname hvalue _ _ hname' hvalue' =>
    rw [details_assignment hname.plain hvalue.isType_eq,
      details_assignment hname'.plain hvalue'.isType_eq, String.append_right_inj,
      String.append_left_inj] at hdetails
    rw [printed_eq_one rfl hvalue, printed_eq_one rfl hvalue'] at hprinted
    cases hprinted
    rw [hdetails]
  case statement.statement hinner _ hinner' =>
    rw [printed_eq_one rfl hinner, printed_eq_one rfl hinner'] at hprinted
    cases hprinted
    rfl
  case arith.arith hleft hright _ _ _ hleft' hright' =>
    rw [printed_eq_pair rfl hleft hright, printed_eq_pair rfl hleft' hright'] at hprinted
    cases hprinted
    rw [arithClass_injective hclass]
  case comparison.comparison hleft hright _ _ _ hleft' hright' =>
    rw [details_comparison hleft.isType_eq hright.isType_eq,
      details_comparison hleft'.isType_eq hright'.isType_eq, String.append_right_inj,
      String.append_left_inj] at hdetails
    rw [printed_eq_pair rfl hleft hright, printed_eq_pair rfl hleft' hright'] at hprinted
    cases hprinted
    rw [CompareOp.text_injective hdetails]
  case call.call arguments hname harguments _ arguments' hname' harguments' =>
    rw [details_call hname.plain, details_call hname'.plain, String.append_right_inj,
      String.append_left_inj] at hdetails
    rw [printed_eq_places arguments (List.append_nil _) harguments,
      printed_eq_places arguments' (List.append_nil _) harguments'] at hprinted
    rw [hdetails, hprinted]
  case block.block hstatements hresult _ _ hstatements' hresult' =>
    have hne : Standing.statement ≠ .expression := nofun
    rw [printed_block hstatements hresult, printed_block hstatements' hresult'] at hprinted
    obtain ⟨rfl, rfl⟩ :=
      eq_of_append_place_eq hne hstatements hstatements' hresult hresult' hprinted
    rfl
  case branch.branch hcondition hbody _ _ hcondition' hbody' =>
    rw [printed_eq_pair rfl hcondition hbody, printed_eq_pair rfl hcondition' hbody'] at hprinted
    cases hprinted
    rfl
  case conditional.conditional hcondition hbody hbranches hotherwise _ _ _ _ hcondition' hbody'
      hbranches' hotherwise' =>
    have hne : Standing.branch ≠ .expression := nofun
    rw [printed_conditional hcondition hbody hbranches hotherwise,
      printed_conditional hcondition' hbody' hbranches' hotherwise', List.cons_eq_cons,
      List.cons_eq_cons] at hprinted
    obtain ⟨rfl, rfl, hrow⟩ := hprinted
    obtain ⟨rfl, rfl⟩ :=
      eq_of_append_place_eq hne hbranches hbranches' hotherwise hotherwise' hrow
    rfl
  case negation.negation hinner _ hinner' =>
    rw [printed_eq_one rfl hinner, printed_eq_one rfl hinner'] at hprinted
    cases hprinted
    rfl
  case parenthesized.parenthesized hinner _ hinner' =>
    rw [printed_eq_one rfl hinner, printed_eq_one rfl hinner'] at hprinted
    cases hprinted
    rfl
  case identifier.identifier hname _ hname' =>
    rw [details_identifier hname.plain, details_identifier hname'.plain, String.append_right_inj,
      String.append_left_inj] at hdetails
    rw [hdetails]
  case literal.literal htext _ htext' =>
    rw [details_literal htext.plain, details_literal htext'.plain, String.append_right_inj,
      String.append_left_inj] at hdetails
    rw [hdetails]

/-! ### Outlines -/

/-- How far a line is indented. -/
def depth (line : String) : Nat := (line.toList.takeWhile (· == ' ')).length

/-- The line of a node is indented by its level, because no class starts with a space. -/
theorem depth_line (tree : Tree) (level : Nat) :
    depth (indentation level ++ tree.header) = 2 * level := by
  have hstop : ∀ c, tree.header.toList.head? = some c → (c == ' ') = false := by
    intro c hc
    obtain ⟨hne, hletters⟩ := tree.className_letters
    obtain ⟨d, more, hclass⟩ := List.exists_cons_of_ne_nil (mt String.toList_eq_nil_iff.mp hne)
    have hletter : d.isAlpha = true := hletters d (by rw [hclass]; exact List.mem_cons_self)
    rw [header_eq, String.toList_append, hclass] at hc
    cases hc
    rw [beq_eq_false_iff_ne]
    rintro rfl
    cases hletter
  have hspaces : ∀ c ∈ List.replicate (2 * level) ' ', (c == ' ') = true :=
    fun c hc ↦ beq_iff_eq.mpr (List.eq_of_mem_replicate hc)
  rw [depth, String.toList_append, indentation, String.toList_ofList, Int.toNat_natCast,
    (span_of_stop hspaces hstop).1, List.length_replicate]

/-- The lines start with one that is less far in than a level, if there are any. -/
def Outer (level : Nat) (lines : List String) : Prop :=
  ∀ line, lines.head? = some line → depth line < 2 * level

theorem head?_outlines (tree : Tree) (trees : List Tree) (level : Nat) (rest : List String) :
    ((tree :: trees).flatMap (·.outline level) ++ rest).head? =
      some (indentation level ++ tree.header) := by
  rw [List.flatMap_cons, outline_eq]
  rfl

/-- What follows the outlines of the nodes below a node is less far in than these. -/
theorem Outer.append {level : Nat} {rest : List String} (hrest : Outer level rest)
    (trees : List Tree) : Outer (level + 1) (trees.flatMap (·.outline level) ++ rest) := by
  intro line hline
  cases trees with
  | nil =>
    have hless := hrest line hline
    omega
  | cons tree trees =>
    rw [head?_outlines] at hline
    cases hline
    rw [depth_line]
    omega

/-- Outlines of formed trees that are followed by less indented lines are known from their lines, and
so is where they end. -/
theorem eq_of_outlines_append_eq {first second : List Tree} {level : Nat} {rest rest' : List String}
    (hfirst : ∀ tree ∈ first, ∃ standing, tree.Formed .written standing)
    (hsecond : ∀ tree ∈ second, ∃ standing, tree.Formed .written standing)
    (hrest : Outer level rest) (hrest' : Outer level rest')
    (hlines : first.flatMap (·.outline level) ++ rest = second.flatMap (·.outline level) ++ rest') :
    first = second ∧ rest = rest' := by
  induction hsize : sizes first using Nat.strongRecOn generalizing first second level rest rest' with
  | ind size ih =>
    subst hsize
    cases first with
    | nil =>
      cases second with
      | nil => exact ⟨rfl, hlines⟩
      | cons tree trees =>
        have hless := hrest _ ((congrArg List.head? hlines).trans (head?_outlines ..))
        rw [depth_line] at hless
        omega
    | cons tree trees =>
      cases second with
      | nil =>
        have hless := hrest' _ ((congrArg List.head? hlines).symm.trans (head?_outlines ..))
        rw [depth_line] at hless
        omega
      | cons other others =>
        obtain ⟨⟨standing, htree⟩, htrees⟩ := List.forall_mem_cons.mp hfirst
        obtain ⟨⟨standing', hother⟩, hothers⟩ := List.forall_mem_cons.mp hsecond
        -- the nodes below the first one come up to the outlines of the trees beside it
        rw [List.flatMap_cons, List.flatMap_cons, List.append_assoc, List.append_assoc, outline_eq,
          outline_eq, List.cons_append, List.cons_append, List.cons_eq_cons] at hlines
        obtain ⟨hline, hbelow⟩ := hlines
        have hprintedSize := sizes_printed_lt tree
        obtain ⟨hprinted, hbeside⟩ := ih (sizes tree.printed) (by rw [sizes]; omega)
          (fun child hchild ↦ htree.of_mem_printed hchild)
          (fun child hchild ↦ hother.of_mem_printed hchild)
          (hrest.append trees) (hrest'.append others) hbelow rfl
        have hpositive := size_eq_sizes_places tree
        obtain ⟨hsame, hend⟩ :=
          ih (sizes trees) (by rw [sizes]; omega) htrees hothers hrest hrest' hbeside rfl
        have hheader := (String.append_right_inj _).mp hline
        exact ⟨by rw [htree.eq_of_header_eq_of_printed_eq hother hheader hprinted, hsame], hend⟩

end Tree

/-! ### Texts -/

/-- Lines without line feeds are known from the text in which line feeds join them. -/
theorem eq_of_intercalate_eq {first second : List String}
    (hfirst : ∀ line ∈ first, '\n' ∉ line.toList) (hsecond : ∀ line ∈ second, '\n' ∉ line.toList)
    (hne : first ≠ []) (hne' : second ≠ [])
    (htext : "\n".intercalate first = "\n".intercalate second) : first = second := by
  have hsplit : ∀ {lines : List String}, (∀ line ∈ lines, '\n' ∉ line.toList) → lines ≠ [] →
      ("\n".intercalate lines).toList.splitOn '\n' = lines.map String.toList := by
    intro lines hlines hne
    rw [String.toList_intercalate]
    refine List.splitOn_intercalate '\n' ?_ (mt List.map_eq_nil_iff.mp hne)
    exact List.forall_mem_map.mpr hlines
  have hlists : first.map String.toList = second.map String.toList := by
    rw [← hsplit hfirst hne, ← hsplit hsecond hne', htext]
  exact List.map_injective_iff.mpr (fun _ _ hsame ↦ String.toList_inj.mp hsame) hlists

/-- Two programs that were parsed from source texts and are printed alike are the same. -/
theorem parseSource_text_injective {source source' file file' : String} {first second : Tree}
    (hfirst : parseSource source file = .ok first) (hsecond : parseSource source' file' = .ok second)
    (htext : first.text 0 = second.text 0) : first = second := by
  have hformed := formed_of_parseSource hfirst
  have hformed' := formed_of_parseSource hsecond
  have hfeed : ∀ {tree : Tree}, tree.Formed .written .program →
      ∀ line ∈ tree.outline 0, '\n' ∉ line.toList := by
    intro tree htree line hline hmem
    cases htree.printable_outline 0 line hline _ hmem
  have hne : ∀ tree : Tree, tree.outline 0 ≠ [] := by
    intro tree
    rw [Tree.outline_eq]
    exact List.cons_ne_nil _ _
  have hlines : first.outline 0 = second.outline 0 := by
    rw [Tree.text, Tree.text, Tree.lines_eq_outline, Tree.lines_eq_outline] at htext
    exact eq_of_intercalate_eq (hfeed hformed) (hfeed hformed') (hne first) (hne second) htext
  have houter : Tree.Outer 0 [] := by
    intro line hline
    cases hline
  have hrow : [first].flatMap (·.outline (0 : Nat)) ++ [] =
      [second].flatMap (·.outline (0 : Nat)) ++ [] := by
    simpa using hlines
  obtain ⟨hsame, -⟩ := Tree.eq_of_outlines_append_eq (List.forall_mem_singleton.mpr ⟨_, hformed⟩)
    (List.forall_mem_singleton.mpr ⟨_, hformed'⟩) houter houter hrow
  exact List.singleton_inj.mp hsame

/-- A block with a statement and a result, written on one line and on two. -/
theorem parseSource_text_injective_block : ∃ first second,
    parseSource "\x7b1; 2\x7d" "first" = .ok first ∧
      parseSource "\x7b 1; # one\n2 \x7d" "second" = .ok second ∧
      first.lines 0 = ["Program", "  ExpressionStatement", "    Block", "      ExpressionStatement",
        "        NumberLiteral(lexeme='1')", "      NumberLiteral(lexeme='2')"] ∧
      first.text 0 = second.text 0 ∧ first = second := by
  let tree : Tree := .program
    [.statement (.block [.statement (.literal (some "1"))] (.literal (some "2")))]
  have hread : ∀ {source file}, tokenize source file =
      .ok [⟨.leftCurly, some "\x7b"⟩, ⟨.numberLiteral, some "1"⟩, ⟨.semicolon, some ";"⟩,
        ⟨.numberLiteral, some "2"⟩, ⟨.rightCurly, some "\x7d"⟩, Token.endOfStream] →
      parseSource source file = .ok tree := by
    intro source file htokens
    rw [parseSource_of_tokenize htokens, parse_eq_predict]
    rfl
  have hfirst : parseSource "\x7b1; 2\x7d" "first" = .ok tree := hread rfl
  have hsecond : parseSource "\x7b 1; # one\n2 \x7d" "second" = .ok tree := hread rfl
  have hlines : tree.lines 0 = ["Program", "  ExpressionStatement", "    Block",
      "      ExpressionStatement", "        NumberLiteral(lexeme='1')",
      "      NumberLiteral(lexeme='2')"] := by decide +kernel
  exact ⟨tree, tree, hfirst, hsecond, hlines, rfl, parseSource_text_injective hfirst hsecond rfl⟩

end LetLang
