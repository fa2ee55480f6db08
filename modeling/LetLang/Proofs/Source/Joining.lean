import LetLang.Proofs.Grammar.Completeness
import LetLang.Proofs.Source.Layout
import LetLang.Proofs.Source.Tokens

/-!
# Source texts can be put together

Two source texts with a line feed between them stand for the statements of the first followed by
those of the second (`parseSource_join`).

The line feed keeps the pieces of the two texts apart, also where the first text ends inside a
comment (`pieces_join`), so the tokens of the whole are those of both. What the parser would look at
beyond the end of the first program does not matter: the statements of both derive all of the tokens
(`AreStatements.append`), and tokens that derive a program are parsed to it.
-/

set_option autoImplicit false

namespace LetLang

/-! ### Pieces and tokens -/

/-- Texts with a line feed between them are cut one after the other. -/
theorem pieces_join (first second : List Char) :
    pieces (first ++ '\n' :: second) = pieces first ++ .blank '\n' :: pieces second := by
  have hblank : Text.isBlank '\n' = true := by decide
  induction hlength : first.length using Nat.strongRecOn generalizing first with
  | ind length ih =>
    cases first with
    | nil =>
      rw [List.nil_append, pieces_cons, Piece.first_of_isBlank hblank]
      rfl
    | cons c more =>
      have hlt := Piece.length_first_lt c more
      have hbreak : IsBreak ('\n' :: second) := fun d hd ↦ .inl (Option.some.inj hd ▸ hblank)
      have hfirst := Piece.first_append (c := c) hbreak
        (fun _ d hd ↦ (Option.some.inj hd).symm) more
      rw [List.cons_append, pieces_cons, hfirst, ih _ (by omega) _ rfl, pieces_cons,
        List.cons_append]

/-- Texts that are lexed without a fault are lexed so with a line feed between them. -/
theorem Lexes.join {first second : List Char} {tokens others : List Token}
    (hfirst : Lexes first tokens) (hsecond : Lexes second others) :
    Lexes (first ++ '\n' :: second) (tokens ++ others) := by
  obtain ⟨rfl, hfaults⟩ := hfirst
  obtain ⟨rfl, hothers⟩ := hsecond
  constructor
  · rw [tokensOf, pieces_join, List.filterMap_append]
    rfl
  · rw [faultsOf, pieces_join, List.filterMap_append]
    change faultsOf first ++ faultsOf second = []
    rw [hfaults, hothers]
    rfl

/-- A source text is tokenized exactly if it is lexed without a fault. -/
theorem tokenize_eq_ok_iff {source file : String} {tokens : List Token} :
    tokenize source file = .ok (tokens ++ [Token.endOfStream]) ↔ Lexes source.toList tokens := by
  constructor
  · intro htokens
    have hlex := lex_of_tokenize htokens
    rw [tokens_lex, List.append_cancel_right_eq] at hlex
    refine ⟨hlex, (errors_lex_eq_nil_iff source file).mp ?_⟩
    unfold tokenize at htokens
    cases herrors : (lex source file).errors with
    | nil => rfl
    | cons error errors =>
      simp only [herrors] at htokens
      cases htokens
  · rintro ⟨rfl, hfaults⟩
    have herrors := (errors_lex_eq_nil_iff source file).mpr hfaults
    simp only [tokenize, herrors, tokens_lex]

/-! ### Programs -/

theorem AreStatements.append {trees others : List Tree} {tokens rest : List Token}
    (htrees : AreStatements trees tokens) (hothers : AreStatements others rest) :
    AreStatements (trees ++ others) (tokens ++ rest) := by
  induction htrees using AreStatements.induct with
  | nil => exact hothers
  | cons hfirst _ ih => simpa using AreStatements.cons hfirst ih

/-- The tokens before the end of the stream derive the statements that are parsed from them, and the
statements keep to the limit of nesting. -/
theorem statements_of_parse {front : List Token} {trees : List Tree}
    (hfront : ∀ token ∈ front, token.kind ≠ .endOfStream)
    (hparse : parse (front ++ [Token.endOfStream]) = .ok (.program trees)) :
    AreStatements trees front ∧ Tree.nestings trees ≤ nestingLimit := by
  rw [parse_eq_predict] at hparse
  obtain ⟨hderived, hnesting⟩ := predict_sound hparse
  have htake : (front ++ [Token.endOfStream]).takeWhile (·.kind != .endOfStream) = front := by
    rw [List.takeWhile_append_of_pos (by simpa using hfront)]
    simp [Token.endOfStream]
  rw [htake] at hderived
  cases hderived with
  | program hstatements => exact ⟨hstatements, hnesting⟩

/-- Tokens that derive statements are parsed to them, if these keep to the limit of nesting. -/
theorem parse_of_statements {front : List Token} {trees : List Tree}
    (hstatements : AreStatements trees front) (hnesting : Tree.nestings trees ≤ nestingLimit) :
    parse (front ++ [Token.endOfStream]) = .ok (.program trees) := by
  rw [parse_eq_predict]
  exact (predict_complete (.program hstatements) [Token.endOfStream] rfl).1 hnesting

/-- A source text that stands for a program is lexed to tokens that derive its statements. -/
theorem statements_of_parseSource {source file : String} {trees : List Tree}
    (hparse : parseSource source file = .ok (.program trees)) :
    ∃ tokens, Lexes source.toList tokens ∧ AreStatements trees tokens ∧
      Tree.nestings trees ≤ nestingLimit := by
  cases htokens : tokenize source file with
  | error error =>
    rw [parseSource, htokens] at hparse
    cases hparse
  | ok tokens =>
    obtain ⟨front, hfront, hemitted⟩ := emitted_lex source file
    rw [lex_of_tokenize htokens] at hfront
    subst hfront
    rw [parseSource_of_tokenize htokens] at hparse
    have hprogram : parse (front ++ [Token.endOfStream]) = .ok (.program trees) := by
      cases hresult : parse (front ++ [Token.endOfStream]) with
      | error failure =>
        rw [hresult] at hparse
        cases hparse
      | ok tree =>
        rw [hresult] at hparse
        cases hparse
        rfl
    exact ⟨front, tokenize_eq_ok_iff.mp htokens,
      statements_of_parse (fun token htoken ↦ (hemitted token htoken).notEnd) hprogram⟩

/-- Source texts can be put together with a line feed between them: the whole stands for the
statements of the first and then those of the second. -/
theorem parseSource_join {first second firstFile secondFile : String} {trees others : List Tree}
    (hfirst : parseSource first firstFile = .ok (.program trees))
    (hsecond : parseSource second secondFile = .ok (.program others)) (file : String) :
    parseSource (first ++ "\n" ++ second) file = .ok (.program (trees ++ others)) := by
  obtain ⟨tokens, hlexes, htrees, hnesting⟩ := statements_of_parseSource hfirst
  obtain ⟨rest, hlexesRest, hothers, hnestingOthers⟩ := statements_of_parseSource hsecond
  have hjoined : Lexes (first ++ "\n" ++ second).toList (tokens ++ rest) := by
    simpa using hlexes.join hlexesRest
  have hparse :
      parse (tokens ++ rest ++ [Token.endOfStream]) = .ok (.program (trees ++ others)) := by
    refine parse_of_statements (htrees.append hothers) ?_
    rw [Tree.nestings_append]
    exact Nat.max_le.mpr ⟨hnesting, hnestingOthers⟩
  rw [parseSource_of_tokenize (tokenize_eq_ok_iff.mpr hjoined), hparse]
  rfl

/-- A conditional without a last block, with a comment behind it that looks like one, in front of a
text that starts with a block and a sign. -/
theorem parseSource_join_conditional :
    let choice : Tree := .conditional (.identifier (some "a")) (.block [] .absent) [] .absent
    let negative : Tree := .negation (.literal (some "1"))
    parseSource "if a \x7b\x7d # else" "" = .ok (.program [.statement choice]) ∧
      parseSource "\x7b\x7d -1;" "" =
        .ok (.program [.statement (.block [] .absent), .statement negative]) ∧
      parseSource ("if a \x7b\x7d # else" ++ "\n" ++ "\x7b\x7d -1;") "" =
        .ok (.program
          [.statement choice, .statement (.block [] .absent), .statement negative]) := by
  intro choice negative
  have htokens : tokenize "if a \x7b\x7d # else" "" =
      .ok [⟨.keyword, some "if"⟩, ⟨.identifier, some "a"⟩, ⟨.leftCurly, some "\x7b"⟩,
        ⟨.rightCurly, some "\x7d"⟩, Token.endOfStream] := rfl
  have hfirst : parseSource "if a \x7b\x7d # else" "" =
      .ok (.program [.statement choice]) := by
    rw [parseSource_of_tokenize htokens, parse_eq_predict]
    rfl
  have hothers : tokenize "\x7b\x7d -1;" "" =
      .ok [⟨.leftCurly, some "\x7b"⟩, ⟨.rightCurly, some "\x7d"⟩, ⟨.minus, some "-"⟩,
        ⟨.numberLiteral, some "1"⟩, ⟨.semicolon, some ";"⟩, Token.endOfStream] := rfl
  have hsecond : parseSource "\x7b\x7d -1;" "" =
      .ok (.program [.statement (.block [] .absent), .statement negative]) := by
    rw [parseSource_of_tokenize hothers, parse_eq_predict]
    rfl
  exact ⟨hfirst, hsecond, parseSource_join hfirst hsecond ""⟩

end LetLang
