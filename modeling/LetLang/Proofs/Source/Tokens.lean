import LetLang.Proofs.Grammar.Backtracking
import LetLang.Proofs.Grammar.Viability

/-!
# The tokens of a source text, and what parsing makes of them

Every token that lexing yields, but for the one that ends the stream, has the text it was read from;
a keyword or the name of a data type is one of its table, and literals are never classed yet as
integers or floating-point numbers (`Token.Emitted`).

The parser looks some of these texts up, asks for the token before the cursor and for the operator of
a comparison, and would fail otherwise than with a syntax error if one of them were missing. The only
such failure that a parse from the first token can come to is at a token of the kind of data types
that names none (`parse_outcome`), and there is none in a source text. So a source text gives a
program, a lexical error or a syntax error (`parseSource_outcome`).
-/

set_option autoImplicit false

namespace LetLang

/-! ### What lexing yields -/

/-- What the tokens of a source text have in common, the end of the stream aside. -/
structure Token.Emitted (token : Token) : Prop where
  text : ∃ text, token.lexeme = some text
  notEnd : token.kind ≠ .endOfStream
  untyped : token.kind ≠ .integerLiteral ∧ token.kind ≠ .floatLiteral
  keyword : token.kind = .keyword → ∃ word ∈ keywords, token.lexeme = some word
  dataType : token.kind = .dataType → ∃ name ∈ dataTypeNames, token.lexeme = some name

theorem emitted_word (word : String) : Token.Emitted ⟨wordKind word, some word⟩ := by
  unfold wordKind
  split
  · next hkeyword =>
    have hmem : word ∈ keywords := by simpa using hkeyword
    exact ⟨⟨word, rfl⟩, by simp, by simp, fun _ ↦ ⟨word, hmem, rfl⟩, by simp⟩
  · split
    · next hname =>
      have hmem : word ∈ dataTypeNames := by simpa using hname
      exact ⟨⟨word, rfl⟩, by simp, by simp, by simp, fun _ ↦ ⟨word, hmem, rfl⟩⟩
    · exact ⟨⟨word, rfl⟩, by simp, by simp, by simp, by simp⟩

theorem emitted_operator {text : String} {kind : TokenKind} (hkind : operatorKind? text = some kind) :
    Token.Emitted ⟨kind, some text⟩ := by
  obtain ⟨before, behind, htable, -⟩ := List.lookup_eq_some_iff.mp hkind
  have hmem : (text, kind) ∈ operators := by
    rw [htable]
    exact List.mem_append_right before List.mem_cons_self
  have hclass : ∀ entry ∈ operators, entry.2 ≠ .endOfStream ∧ entry.2 ≠ .integerLiteral ∧
      entry.2 ≠ .floatLiteral ∧ entry.2 ≠ .keyword ∧ entry.2 ≠ .dataType := by decide
  obtain ⟨hend, hinteger, hfloat, hkeyword, hdata⟩ := hclass _ hmem
  exact ⟨⟨text, rfl⟩, hend, ⟨hinteger, hfloat⟩, fun h ↦ absurd h hkeyword, fun h ↦ absurd h hdata⟩

namespace Piece

/-- Every piece of a text was cut off the front of a part of it. -/
theorem exists_first_of_mem_cut {piece : Piece} {cuts : Nat} {text : List Char}
    (hpiece : piece ∈ cut cuts text) : ∃ c rest, piece = (first c rest).1 := by
  induction cuts generalizing text with
  | zero => simp [cut] at hpiece
  | succ cuts ih =>
    cases text with
    | nil => simp [cut] at hpiece
    | cons c rest =>
      rw [cut, List.mem_cons] at hpiece
      rcases hpiece with rfl | hlater
      · exact ⟨c, rest, rfl⟩
      · exact ih hlater

theorem emitted_numberFirst {digit : Char} {rest : List Char} {token : Token}
    (htoken : (numberFirst digit rest).1.token? = some token) : token.Emitted := by
  have hnumber : ∀ text : List Char, Token.Emitted ⟨.numberLiteral, some (String.ofList text)⟩ :=
    fun text ↦ ⟨⟨_, rfl⟩, by simp, by simp, by simp, by simp⟩
  unfold numberFirst at htoken
  split at htoken
  · split at htoken
    · cases htoken
    · cases htoken
      exact hnumber _
  · cases htoken
    exact hnumber _

theorem emitted_shortOperatorFirst {c : Char} {rest : List Char} {token : Token}
    (htoken : (shortOperatorFirst c rest).1.token? = some token) : token.Emitted := by
  unfold shortOperatorFirst at htoken
  split at htoken
  · next kind hkind =>
    cases htoken
    exact emitted_operator hkind
  · cases htoken

theorem emitted_operatorFirst {c : Char} {rest : List Char} {token : Token}
    (htoken : (operatorFirst c rest).1.token? = some token) : token.Emitted := by
  unfold operatorFirst at htoken
  split at htoken
  · exact emitted_shortOperatorFirst htoken
  · split at htoken
    · next kind hkind =>
      cases htoken
      exact emitted_operator hkind
    · exact emitted_shortOperatorFirst htoken

theorem emitted_first {c : Char} {rest : List Char} {token : Token}
    (htoken : (first c rest).1.token? = some token) : token.Emitted := by
  unfold first at htoken
  split at htoken
  · cases htoken
  split at htoken
  · cases htoken
  split at htoken
  · cases htoken
    exact emitted_word _
  split at htoken
  · exact emitted_numberFirst htoken
  · exact emitted_operatorFirst htoken

end Piece

/-- The tokens of a source text end with the end of the stream, and are emitted tokens before. -/
theorem emitted_lex (source file : String) :
    ∃ front, (lex source file).tokens = front ++ [Token.endOfStream] ∧
      ∀ token ∈ front, token.Emitted := by
  refine ⟨(pieces source.toList).filterMap Piece.token?, rfl, fun token htoken ↦ ?_⟩
  obtain ⟨piece, hpiece, hpieceToken⟩ := List.mem_filterMap.mp htoken
  obtain ⟨c, rest, rfl⟩ := Piece.exists_first_of_mem_cut hpiece
  exact Piece.emitted_first hpieceToken

theorem lex_of_tokenize {source file : String} {tokens : List Token}
    (htokens : tokenize source file = .ok tokens) : (lex source file).tokens = tokens := by
  unfold tokenize at htokens
  cases herrors : (lex source file).errors with
  | nil =>
    simp only [herrors] at htokens
    cases htokens
    rfl
  | cons error errors =>
    simp only [herrors] at htokens
    cases htokens

theorem parseSource_of_tokenize {source file : String} {tokens : List Token}
    (htokens : tokenize source file = .ok tokens) :
    parseSource source file = (parse tokens).mapError .parsing := by
  rw [parseSource, htokens]

/-! ### What parsing makes of it -/

theorem Token.Emitted.not_misnamed {token : Token} (hemitted : token.Emitted) : ¬ token.Misnamed := by
  rintro ⟨hkind, hname⟩
  obtain ⟨name, hmem, hlexeme⟩ := hemitted.dataType hkind
  have hknown : ∀ name ∈ dataTypeNames, DataType.ofName? name ≠ none := by decide
  rw [hlexeme, Option.bind_some] at hname
  exact hknown name hmem hname

/-- Where every data type is named, parsing gives a program or a syntax error. -/
theorem parse_outcome {tokens : List Token} (hnamed : ∀ token ∈ tokens, ¬ token.Misnamed) :
    (∃ statements, parse tokens = .ok (.program statements)) ∨
      ∃ error, parse tokens = .error (.syntaxError error) := by
  rw [parse_eq_predict]
  cases hread : predict tokens with
  | ok tree =>
    cases (predict_sound hread).1 with
    | @program statements _ _ => exact .inl ⟨statements, rfl⟩
  | error failure =>
    unfold predict at hread
    split at hread
    · cases hread
    next obstacle rest hstop =>
    cases obstacle with
    | misfit cause =>
      cases hread
      exact .inr ⟨_, rfl⟩
    | unknownDataType lexeme =>
      obtain ⟨token, htoken, hmisnamed⟩ :=
        (pursues_program (viable_level _ _) (sound_level _ _) _ _).misnamed lexeme rest hstop
      exact absurd hmisnamed (hnamed token htoken)

/-- A source text gives a program, a lexical error or a syntax error. What stands between the lexer and
the parser is a list of emitted tokens, with the end of the stream as its last and nowhere else. -/
theorem parseSource_outcome (source file : String) :
    (∃ front, (lex source file).tokens = front ++ [Token.endOfStream] ∧
      ∀ token ∈ front, token.Emitted) ∧
    ((∃ statements, parseSource source file = .ok (.program statements)) ∨
      (∃ error, parseSource source file = .error (.lexical error)) ∨
      ∃ error, parseSource source file = .error (.parsing (.syntaxError error))) := by
  obtain ⟨front, hfront, hemitted⟩ := emitted_lex source file
  refine ⟨⟨front, hfront, hemitted⟩, ?_⟩
  cases htokens : tokenize source file with
  | error error => exact .inr (.inl ⟨error, by rw [parseSource, htokens]⟩)
  | ok tokens =>
    have hnamed : ∀ token ∈ tokens, ¬ token.Misnamed := by
      rw [← lex_of_tokenize htokens, hfront]
      intro token htoken
      rcases List.mem_append.mp htoken with hmem | hmem
      · exact (hemitted token hmem).not_misnamed
      · obtain rfl := List.mem_singleton.mp hmem
        exact fun hmisnamed ↦ nomatch hmisnamed.1
    rcases parse_outcome hnamed with ⟨statements, hparse⟩ | ⟨error, hparse⟩
    · exact .inl ⟨statements, by rw [parseSource_of_tokenize htokens, hparse]; rfl⟩
    · exact .inr (.inr ⟨error, by rw [parseSource_of_tokenize htokens, hparse]; rfl⟩)

end LetLang
