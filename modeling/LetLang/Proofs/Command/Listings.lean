import LetLang.Command.Run
import LetLang.Proofs.Meaning.Forms

/-!
# Listings hold no escape characters

What `tokens`, `parse` and `check` print of a source that passes is made of the names and numbers of
the source, of the words of the language and of line ends. None of these holds an escape character, so
the listing of its tokens (`escapeless_tokenListing`), its printed tree (`Tree.Formed.escapeless_text`)
and its reduced tree with the table of names (`escapeless_checkListing`) are shown as they are, with
colours and without.
-/

set_option autoImplicit false

namespace LetLang

open Text

theorem IsItem.printable {token : Token} {text : String} (hitem : IsItem token)
    (htext : token.lexeme = some text) : Printable text := by
  cases hitem with
  | identifier hword _ _ =>
    cases htext
    exact IsWord.plain (by rwa [String.toList_ofList]) |>.printable
  | keyword hword =>
    cases htext
    exact (by decide : ∀ word ∈ keywords, Printable word) _ hword
  | dataType hname =>
    cases htext
    exact (by decide : ∀ name ∈ dataTypeNames, Printable name) _ hname
  | number hnumber =>
    cases htext
    exact Piece.IsNumber.plain (by rwa [String.toList_ofList]) |>.printable
  | operator hkind =>
    cases htext
    exact (by decide : ∀ entry ∈ operators, Printable entry.1) _ hkind

theorem TokenKind.printable_name (kind : TokenKind) : Printable kind.name := by
  cases kind <;> decide

theorem escapeless_tokenListing (source file : String) :
    Escapeless (tokenListing (lex source file).tokens) := by
  refine over_join (List.forall_mem_map.mpr fun token htoken ↦ over_append.mpr ⟨?_, by decide⟩)
  have hlexeme : Printable (token.lexeme.getD "") := by
    rw [tokens_lex, List.mem_append, List.mem_singleton] at htoken
    rcases htoken with htoken | rfl
    · have hitem := isItem_of_mem_tokensOf htoken
      obtain ⟨text, htext⟩ := hitem.exists_lexeme
      rw [htext]
      exact hitem.printable htext
    · decide
  have hname : Printable (padRight ' ' 16 token.kind.name) :=
    over_padRight (by decide) token.kind.printable_name 16
  have hline : Printable token.line :=
    over_trimRight (over_append.mpr ⟨over_append.mpr ⟨hname, by decide⟩, hlexeme⟩)
  exact hline.escapeless

theorem Tree.Formed.escapeless_text {stage : Stage} {standing : Standing} {tree : Tree}
    (hformed : tree.Formed stage standing) : Escapeless (tree.text 0 ++ "\n") := by
  refine over_append.mpr ⟨?_, by decide⟩
  rw [Tree.text, Tree.lines_eq_outline]
  exact escapeless_intercalate (hformed.printable_outline 0)

theorem escapeless_checkListing {strict : Bool} {program reduced : Tree}
    (hformed : program.Formed .written .program) (hplaced : program.placedProgram = true)
    (hreduced : (validate strict program).result = .ok reduced) :
    Escapeless (checkListing reduced (validate strict program).reducer.table) := by
  have hreducedFormed := formed_validate hformed hreduced
  obtain ⟨statements, rfl, htable⟩ := table_eq_ofStatements hplaced hreduced
  have hstatements : ∀ statement ∈ statements, statement.Formed .reduced .statement := by
    cases hreducedFormed with
    | program hstatements => exact hstatements
  refine over_append.mpr ⟨hreducedFormed.escapeless_text, ?_⟩
  rw [htable]
  split
  · decide
  · refine over_append.mpr ⟨over_append.mpr ⟨by decide, ?_⟩, by decide⟩
    exact escapeless_ofStatements hstatements

end LetLang
