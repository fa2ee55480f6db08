import LetLang.Proofs.Grammar.Formation
import LetLang.Proofs.Syntax.Outline
import LetLang.Proofs.Text.Printing

/-!
# The lines of a printed tree

The line of a node starts with its class, and says in parentheses what it holds besides the nodes
below (`Tree.details`). In a formed tree these are names, numbers and types, so every line is
printable (`Tree.Formed.printable_header`). The nodes below a formed node that have lines of their
own are the ones in its places, but for types and empty places, and they are formed again
(`Tree.Formed.of_mem_printed`).
-/

set_option autoImplicit false

namespace LetLang

open Text

/-! ### Types -/

mutual

theorem IsNamedType.printable {tree : Tree} (h : IsNamedType tree) : Printable tree.inline := by
  match h with
  | .basic name => cases name <;> decide
  | .function hparameters hresult =>
    have hcomma : Printable ", " := by decide
    simp only [Tree.inline, over_append]
    exact ⟨⟨⟨by decide, over_intercalate hcomma hparameters.printable⟩, by decide⟩,
      hresult.printable⟩

theorem AreNamedParameters.printable {parameters : List Tree} (h : AreNamedParameters parameters) :
    ∀ text ∈ Tree.inlines parameters, Printable text := by
  match h with
  | .nil => exact List.forall_mem_nil _
  | .cons hname htype hparameters =>
    refine List.forall_mem_cons.mpr ⟨?_, hparameters.printable⟩
    simp only [Tree.inline, over_append]
    exact ⟨⟨hname.isWord.1.plain.printable, by decide⟩, htype.printable⟩

end

theorem IsName.plain {name : String} (hname : IsName name) : Plain name := hname.isWord.1.plain

theorem IsNamedType.isType {tree : Tree} (h : IsNamedType tree) : tree.isType = true := by
  cases h <;> rfl

namespace Tree

/-! ### Lines of nodes -/

/-- What the line of a node says besides its class. -/
def details (tree : Tree) : String :=
  match tree.fields.filterMap Field.shown? with
  | [] => ""
  | shown => "(" ++ ", ".intercalate shown ++ ")"

theorem header_eq (tree : Tree) : tree.header = tree.className ++ tree.details := by
  rw [header, details]
  cases tree.fields.filterMap Field.shown? with
  | nil => exact String.append_empty.symm
  | cons text texts => simp only [String.append_assoc]

/-- The class of a node is a word of letters. -/
theorem className_letters (tree : Tree) :
    tree.className ≠ "" ∧ Over (·.isAlpha = true) tree.className := by
  cases tree with
  | arith op left right =>
    rw [className]
    cases op <;> decide
  | _ =>
    rw [className]
    decide

/-- What follows the class of a node starts with a parenthesis. -/
theorem head?_details {tree : Tree} {c : Char} (hc : tree.details.toList.head? = some c) :
    c = '(' := by
  rw [details] at hc
  split at hc
  · cases hc
  · simpa [eq_comm] using hc

/-! What the lines say of nodes that have no type below them, unless they are declarations. -/

theorem details_declaration {keyword : DeclKeyword} {name : String} {type value : Tree}
    (hname : Plain name) (htype : type.isType = true) (hvalue : value.isType = false) :
    (declaration keyword (some name) type value).details =
      "(keyword=" ++ (keyword.text ++ (", identifier='" ++ (name ++ ("', data_type=" ++
        (type.inline ++ ")"))))) := by
  rw [← String.toList_inj]
  simp [details, fields, Field.shown?, labelled, DeclKeyword.choice, quoted_of_plain hname, htype,
    hvalue]

theorem details_assignment {name : String} {value : Tree} (hname : Plain name)
    (hvalue : value.isType = false) :
    (assignment (some name) value).details = "(identifier='" ++ (name ++ "')") := by
  rw [← String.toList_inj]
  simp [details, fields, Field.shown?, labelled, quoted_of_plain hname, hvalue]

theorem details_comparison {op : CompareOp} {left right : Tree} (hleft : left.isType = false)
    (hright : right.isType = false) :
    (comparison left op right).details = "(operator=" ++ (op.text ++ ")") := by
  rw [← String.toList_inj]
  simp [details, fields, Field.shown?, labelled, CompareOp.choice, hleft, hright]

theorem details_call {name : String} {arguments : List Tree} (hname : Plain name) :
    (call (some name) arguments).details = "(name='" ++ (name ++ "')") := by
  rw [← String.toList_inj]
  simp [details, fields, List.filterMap_cons, Field.shown?, labelled, quoted_of_plain hname]

theorem details_identifier {name : String} (hname : Plain name) :
    (identifier (some name)).details = "(name='" ++ (name ++ "')") := by
  rw [← String.toList_inj]
  simp [details, fields, Field.shown?, labelled, quoted_of_plain hname]

theorem details_literal {text : String} (htext : Plain text) :
    (literal (some text)).details = "(lexeme='" ++ (text ++ "')") := by
  rw [← String.toList_inj]
  simp [details, fields, Field.shown?, labelled, quoted_of_plain htext]

theorem details_integer (value : Int) :
    (integer value).details = "(value=" ++ (toString value ++ ")") := by
  rw [← String.toList_inj]
  simp [details, fields, Field.shown?, labelled]

theorem details_float (value : Binary64) :
    (float value).details = "(value=" ++ (value.toText ++ ")") := by
  rw [← String.toList_inj]
  simp [details, fields, Field.shown?, labelled]

/-! ### Nodes of formed trees -/

section

variable {stage : Stage} {standing : Standing} {tree : Tree}

theorem Formed.isPresent_eq (hformed : tree.Formed stage standing) : tree.isPresent = true := by
  cases hformed <;> rfl

theorem Formed.isType_eq (hformed : tree.Formed stage standing) : tree.isType = false := by
  cases hformed <;> rfl

theorem isType_eq_of_place (htree : tree.isPresent = true → tree.Formed stage standing) :
    tree.isType = false := by
  by_cases hpresent : tree.isPresent = true
  · exact (htree hpresent).isType_eq
  · cases tree with
    | absent => rfl
    | _ => exact absurd rfl hpresent

/-- Formed trees in the places of a node are all printed. -/
theorem filter_places {trees : List Tree} (htrees : ∀ tree ∈ trees, tree.Formed stage standing) :
    (trees.filter Tree.isPresent).filter (!·.isType) = trees := by
  rw [List.filter_filter, List.filter_eq_self]
  intro tree htree
  simp [(htrees tree htree).isPresent_eq, (htrees tree htree).isType_eq]

/-- A place that may be empty is printed unless it is. -/
theorem filter_place (htree : tree.isPresent = true → tree.Formed stage standing) :
    ([tree].filter Tree.isPresent).filter (!·.isType) = [tree].filter Tree.isPresent := by
  rw [List.filter_eq_self]
  intro other hother
  obtain ⟨hmem, hpresent⟩ := List.mem_filter.mp hother
  obtain rfl := List.mem_singleton.mp hmem
  simp [isType_eq_of_place htree]

/-- Where all places below a node hold formed trees, these are printed. -/
theorem printed_eq_places (places : List Tree) (hplaces : tree.fields.flatMap (·.value.places) = places)
    (hformed : ∀ place ∈ places, place.Formed stage standing) : tree.printed = places := by
  rw [printed, children, hplaces]
  exact filter_places hformed

theorem printed_eq_one {inner : Tree} (hplaces : tree.fields.flatMap (·.value.places) = [inner])
    (hinner : inner.Formed stage standing) : tree.printed = [inner] :=
  printed_eq_places [inner] hplaces (List.forall_mem_singleton.mpr hinner)

theorem printed_eq_pair {first second : Tree}
    (hplaces : tree.fields.flatMap (·.value.places) = [first, second])
    (hfirst : first.Formed stage standing) (hsecond : second.Formed stage standing) :
    tree.printed = [first, second] := by
  have hformed : ∀ place ∈ [first, second], place.Formed stage standing :=
    List.forall_mem_cons.mpr ⟨hfirst, List.forall_mem_singleton.mpr hsecond⟩
  exact printed_eq_places [first, second] hplaces hformed

theorem printed_declaration {keyword : DeclKeyword} {name : Lexeme} {type value : Tree}
    (htype : type.isType = true) (hvalue : value.Formed stage .expression) :
    (declaration keyword name type value).printed = [value] := by
  have hplaces : (declaration keyword name type value).fields.flatMap (·.value.places) =
      [type] ++ [value] := rfl
  have hnone : ([type].filter isPresent).filter (!·.isType) = [] := by
    rw [List.filter_eq_nil_iff]
    intro tree htree
    obtain rfl := List.mem_singleton.mp (List.mem_filter.mp htree).1
    simp [htype]
  rw [printed, children, hplaces, List.filter_append, List.filter_append, hnone, List.nil_append]
  exact filter_places (List.forall_mem_singleton.mpr hvalue)

theorem printed_block {statements : List Tree} {result : Tree}
    (hstatements : ∀ statement ∈ statements, statement.Formed stage .statement)
    (hresult : result.isPresent = true → result.Formed stage .expression) :
    (block statements result).printed = statements ++ [result].filter isPresent := by
  have hplaces : (block statements result).fields.flatMap (·.value.places) =
      statements ++ [result] := by
    simp [fields, FieldValue.places]
  rw [printed, children, hplaces, List.filter_append, List.filter_append,
    filter_places hstatements, filter_place hresult]

theorem printed_conditional {condition body otherwise : Tree} {branches : List Tree}
    (hcondition : condition.Formed stage .expression) (hbody : body.Formed stage .expression)
    (hbranches : ∀ branch ∈ branches, branch.Formed stage .branch)
    (hotherwise : otherwise.isPresent = true → otherwise.Formed stage .expression) :
    (conditional condition body branches otherwise).printed =
      condition :: body :: (branches ++ [otherwise].filter isPresent) := by
  have hplaces : (conditional condition body branches otherwise).fields.flatMap (·.value.places) =
      [condition, body] ++ (branches ++ [otherwise]) := by
    simp [fields, FieldValue.places]
  have hfront : ∀ tree ∈ [condition, body], tree.Formed stage .expression := by
    simp [hcondition, hbody]
  rw [printed, children, hplaces, List.filter_append, List.filter_append, List.filter_append,
    List.filter_append, filter_places hfront, filter_places hbranches,
    filter_place hotherwise]
  rfl

/-- The nodes that are printed below a formed one are formed. -/
theorem Formed.of_mem_printed (hformed : tree.Formed stage standing) {child : Tree}
    (hchild : child ∈ tree.printed) : ∃ other, child.Formed stage other := by
  obtain ⟨hchildren, hnotType⟩ := List.mem_filter.mp hchild
  obtain ⟨hplace, hpresent⟩ := List.mem_filter.mp hchildren
  cases hformed with
  | program hstatements =>
    simp only [fields, FieldValue.places, List.flatMap_singleton] at hplace
    exact ⟨_, hstatements child hplace⟩
  | declaration _ htype hvalue =>
    simp only [fields, FieldValue.places, DeclKeyword.choice, List.flatMap_cons, List.flatMap_nil,
      List.nil_append, List.append_nil, List.mem_append, List.mem_singleton] at hplace
    rcases hplace with rfl | rfl
    · rw [htype.isType] at hnotType
      cases hnotType
    · exact ⟨_, hvalue⟩
  | assignment _ hvalue =>
    simp only [fields, FieldValue.places, List.flatMap_cons, List.flatMap_nil, List.nil_append,
      List.append_nil, List.mem_singleton] at hplace
    exact ⟨_, hplace ▸ hvalue⟩
  | call _ harguments =>
    simp only [fields, FieldValue.places, List.flatMap_cons, List.flatMap_nil, List.nil_append,
      List.append_nil] at hplace
    exact ⟨_, harguments child hplace⟩
  | block hstatements hresult =>
    simp only [fields, FieldValue.places, List.flatMap_cons, List.flatMap_nil, List.append_nil,
      List.mem_append, List.mem_singleton] at hplace
    rcases hplace with hstatement | rfl
    · exact ⟨_, hstatements child hstatement⟩
    · exact ⟨_, hresult hpresent⟩
  | conditional hcondition hbody hbranches hotherwise =>
    simp only [fields, FieldValue.places, List.flatMap_cons, List.flatMap_nil, List.append_nil,
      List.mem_append, List.mem_singleton] at hplace
    rcases hplace with rfl | rfl | hbranch | rfl
    · exact ⟨_, hcondition⟩
    · exact ⟨_, hbody⟩
    · exact ⟨_, hbranches child hbranch⟩
    · exact ⟨_, hotherwise hpresent⟩
  | identifier | literal | integer | float => cases hplace
  | statement hinner | negation hinner | parenthesized hinner =>
    simp only [fields, FieldValue.places, List.flatMap_singleton, List.mem_singleton] at hplace
    exact ⟨_, hplace ▸ hinner⟩
  | arith hfirst hsecond | comparison hfirst hsecond | branch hfirst hsecond =>
    simp only [fields, FieldValue.places, CompareOp.choice, List.flatMap_cons, List.flatMap_nil,
      List.nil_append, List.append_nil, List.mem_append, List.mem_singleton] at hplace
    rcases hplace with rfl | rfl
    · exact ⟨_, hfirst⟩
    · exact ⟨_, hsecond⟩

/-- What the line of a formed node says is printable. -/
theorem Formed.printable_details (hformed : tree.Formed stage standing) : Printable tree.details := by
  have hnothing : tree.details = "" → Printable tree.details := by
    intro hdetails
    rw [hdetails]
    decide
  have hquoted : ∀ {front name : String}, Printable front → Plain name →
      Printable (front ++ (name ++ "')")) := by
    intro front name hfront hname
    simp only [over_append]
    exact ⟨hfront, hname.printable, by decide⟩
  cases hformed with
  | @declaration _ keyword name type value hname htype hvalue =>
    have hkeyword : Printable keyword.text := by cases keyword <;> decide
    rw [details_declaration hname.plain htype.isType hvalue.isType_eq]
    simp only [over_append]
    exact ⟨by decide, hkeyword, by decide, hname.plain.printable, by decide, htype.printable,
      by decide⟩
  | assignment hname hvalue =>
    rw [details_assignment hname.plain hvalue.isType_eq]
    exact hquoted (by decide) hname.plain
  | call hname _ =>
    rw [details_call hname.plain]
    exact hquoted (by decide) hname.plain
  | identifier hname =>
    rw [details_identifier hname.plain]
    exact hquoted (by decide) hname.plain
  | literal htext =>
    rw [details_literal htext.plain]
    exact hquoted (by decide) htext.plain
  | @comparison _ op left right hleft hright =>
    have hop : Printable op.text := by cases op <;> decide
    rw [details_comparison hleft.isType_eq hright.isType_eq]
    simp only [over_append]
    exact ⟨by decide, hop, by decide⟩
  | integer value =>
    rw [details_integer]
    simp only [over_append]
    exact ⟨by decide, printable_toString value, by decide⟩
  | float value =>
    rw [details_float]
    simp only [over_append]
    exact ⟨by decide, value.printable_toText, by decide⟩
  | program => exact hnothing rfl
  | block _ hresult =>
    have hnotType := isType_eq_of_place hresult
    exact hnothing (by simp [details, fields, List.filterMap_cons, Field.shown?, hnotType])
  | conditional hcondition hbody _ hotherwise =>
    have hnotType := isType_eq_of_place hotherwise
    exact hnothing (by
      simp [details, fields, List.filterMap_cons, Field.shown?, hcondition.isType_eq,
        hbody.isType_eq, hnotType])
  | statement hinner | negation hinner | parenthesized hinner =>
    exact hnothing (by simp [details, fields, Field.shown?, hinner.isType_eq])
  | arith hfirst hsecond | branch hfirst hsecond =>
    exact hnothing (by simp [details, fields, Field.shown?, hfirst.isType_eq, hsecond.isType_eq])

/-- The line of a formed node is printable. -/
theorem Formed.printable_header (hformed : tree.Formed stage standing) : Printable tree.header := by
  rw [header_eq]
  refine over_append.mpr ⟨?_, hformed.printable_details⟩
  exact tree.className_letters.2.mono fun c hc ↦ isPrintable_of_isAlpha hc

/-- The lines of a formed tree are printable. -/
theorem Formed.printable_outline (hformed : tree.Formed stage standing) (level : Int) :
    ∀ line ∈ tree.outline level, Printable line := by
  induction hsize : tree.size using Nat.strongRecOn generalizing tree standing level with
  | ind size ih =>
    subst hsize
    have hindentation : Printable (indentation level) := by
      refine over_ofList.mpr fun c hc ↦ ?_
      rw [List.eq_of_mem_replicate hc]
      decide
    rw [outline_eq]
    refine List.forall_mem_cons.mpr ⟨over_append.mpr ⟨hindentation, hformed.printable_header⟩, ?_⟩
    intro line hline
    obtain ⟨child, hchild, hbelow⟩ := List.mem_flatMap.mp hline
    obtain ⟨other, hother⟩ := hformed.of_mem_printed hchild
    exact ih _ (size_lt_of_mem_printed hchild) hother (level + 1) rfl line hbelow

end

end Tree

end LetLang
