import LetLang.Proofs.Grammar.Phrases
import LetLang.Proofs.Source.Layout
import LetLang.Proofs.Source.Tokens
import LetLang.Syntax.Field

/-!
# Types are read back from their text

A type is written on one line, `(f: (x: int) -> float) -> () -> unit` (`Tree.inline`). Lexing that
line and parsing a type from its tokens gives the type back, up to the end of the stream, as long as
its function types do not nest too deep (`typeRule_inline`).

The line is not laid out with gaps between its tokens: a colon touches the name before it, and
parentheses touch whatever is inside. What keeps the tokens apart is that none of the marks of a
type continues a word or starts a longer operator. So a type is lexed to the same tokens wherever no
character follows that could continue its last word (`WrittenAs`), and these tokens derive it
(`IsNamedType.written`); the rest is what is known of derived types.
-/

set_option autoImplicit false

namespace LetLang

open Text

/-! ### Types with names -/

/-- Lexing some text gives the name to an identifier. -/
def IsName (name : String) : Prop :=
  ∃ source file, ⟨.identifier, some name⟩ ∈ (lex source file).tokens

mutual

/-- A data type, or a function type whose parameters have names. -/
inductive IsNamedType : Tree → Prop
  | basic (name : DataType) : IsNamedType (.basicType name)
  | function {parameters : List Tree} {result : Tree} (hparameters : AreNamedParameters parameters)
      (hresult : IsNamedType result) : IsNamedType (.functionType parameters result)

/-- Any number of parameters, each with a name and a type. -/
inductive AreNamedParameters : List Tree → Prop
  | nil : AreNamedParameters []
  | cons {name : String} {type : Tree} {parameters : List Tree} (hname : IsName name)
      (htype : IsNamedType type) (hparameters : AreNamedParameters parameters) :
      AreNamedParameters (.parameter (some name) type :: parameters)

end

/-- The names of identifiers are the words that are neither keywords nor names of data types. -/
theorem IsName.isWord {name : String} (hname : IsName name) :
    IsWord name.toList ∧ wordKind name = .identifier := by
  obtain ⟨source, file, htoken⟩ := hname
  rw [tokens_lex, List.mem_append, List.mem_singleton] at htoken
  rcases htoken with htoken | hend
  · obtain ⟨piece, hpiece, htoken⟩ := List.mem_filterMap.mp htoken
    obtain ⟨c, rest, rfl⟩ := Piece.exists_first_of_mem_cut hpiece
    rcases Piece.fits_first c rest with hfits | hstray
    · generalize (Piece.first c rest).1 = piece at hfits htoken
      cases hfits with
      | word hstart hmore =>
        simp only [Piece.token?, Option.some.injEq, Token.mk.injEq] at htoken
        obtain ⟨hkind, rfl⟩ := htoken
        exact ⟨⟨_, _, String.toList_ofList, hstart, hmore⟩, hkind⟩
      | operator hkind =>
        have htable : ∀ entry ∈ operators, entry.2 ≠ .identifier := by decide
        cases htoken
        exact absurd rfl (htable _ hkind)
      | _ => cases htoken
    · rw [hstray] at htoken
      cases htoken
  · cases hend

/-! ### Lexing without gaps -/

/-- The text is over, or goes on with a character that continues no word. -/
def EndsWord (text : List Char) : Prop :=
  ∀ c, text.head? = some c → Piece.continuesWord c = false

theorem endsWord_nil : EndsWord [] := fun _ hc ↦ nomatch hc

theorem endsWord_cons {c : Char} {rest : List Char} (hc : Piece.continuesWord c = false) :
    EndsWord (c :: rest) := by
  intro d hd
  cases hd
  exact hc

namespace Lexes

variable {rest : List Char} {tokens : List Token}

/-- A word adds a token of its kind where nothing continues it. -/
theorem wordBefore {text : List Char} (hrest : Lexes rest tokens) (htext : IsWord text)
    (hends : EndsWord rest) :
    Lexes (text ++ rest)
      (⟨wordKind (String.ofList text), some (String.ofList text)⟩ :: tokens) := by
  obtain ⟨c, more, rfl, hstart, hmore⟩ := htext
  obtain ⟨htake, hdrop⟩ := span_of_stop hmore hends
  have hfirst : Piece.first c (more ++ rest) = (.word (c :: more), rest) := by
    rw [Piece.first_of_startsWord hstart, htake, hdrop]
  exact hrest.cons hfirst rfl

/-- A mark that starts no longer operator adds its token, whatever follows. -/
theorem mark {c : Char} {kind : TokenKind} (hrest : Lexes rest tokens)
    (hkind : (String.ofList [c], kind) ∈ operators)
    (halone : ∀ entry ∈ operators, entry.1.toList.head? = some c → entry.1.toList.length = 1) :
    Lexes (c :: rest) (⟨kind, some (String.ofList [c])⟩ :: tokens) := by
  obtain ⟨d, more, htext, hnone, -⟩ := Piece.exists_cons_of_mem_operators hkind
  obtain ⟨rfl, rfl⟩ := List.cons_eq_cons.mp htext
  have hshort : ∀ rest, Piece.shortOperatorFirst c rest = (.operator kind [c], rest) := by
    intro rest
    rw [Piece.shortOperatorFirst, operatorKind?_eq_some_iff.mpr hkind]
  have hfirst : Piece.first c rest = (.operator kind [c], rest) := by
    rw [Piece.first_of_startsNone hnone]
    cases rest with
    | nil => exact hshort []
    | cons next others =>
      have hlong : operatorKind? (String.ofList [c, next]) = none := by
        rw [Option.eq_none_iff_forall_ne_some]
        intro longer hlonger
        have hlength := halone _ (operatorKind?_eq_some_iff.mp hlonger)
        simp at hlength
      rw [Piece.operatorFirst, hlong]
      exact hshort (next :: others)
  exact hrest.cons hfirst rfl

theorem arrow (hrest : Lexes rest tokens) :
    Lexes ('-' :: '>' :: rest) (⟨.arrow, some "->"⟩ :: tokens) := by
  have hkind : operatorKind? (String.ofList ['-', '>']) = some .arrow := by decide
  have hfirst : Piece.first '-' ('>' :: rest) = (.operator .arrow ['-', '>'], rest) := by
    rw [Piece.first_of_startsNone (by decide), Piece.operatorFirst, hkind]
  exact hrest.cons hfirst rfl

end Lexes

/-! ### Types -/

/-- The text is lexed to the tokens wherever nothing continues its last word. -/
def WrittenAs (text : List Char) (tokens : List Token) : Prop :=
  ∀ ⦃rest : List Char⦄ ⦃others : List Token⦄, Lexes rest others → EndsWord rest →
    Lexes (text ++ rest) (tokens ++ others)

theorem writtenAs_nil : WrittenAs [] [] := fun _ _ hrest _ ↦ hrest

theorem writtenAs_dataType (type : DataType) :
    WrittenAs type.name.toList [⟨.dataType, some type.name⟩] := by
  intro rest others hrest hends
  have hname : type.name ∈ dataTypeNames := by cases type <;> decide
  have hlexes := hrest.wordBefore (isWord_of_mem (List.mem_append_right _ hname)) hends
  rwa [String.ofList_toList, wordKind_of_mem_dataTypeNames hname] at hlexes

/-- A name, a colon and the text of a type. -/
theorem WrittenAs.parameter {name : String} {type : List Char} {tokens : List Token}
    (hname : IsName name) (htype : WrittenAs type tokens) :
    WrittenAs (name.toList ++ ':' :: ' ' :: type)
      (⟨.identifier, some name⟩ :: ⟨.colon, some ":"⟩ :: tokens) := by
  intro rest others hrest hends
  obtain ⟨hword, hkind⟩ := hname.isWord
  have hcolon : Lexes (':' :: ' ' :: (type ++ rest)) (⟨.colon, some ":"⟩ :: (tokens ++ others)) :=
    ((htype hrest hends).blank (by decide)).mark (by decide) (by decide)
  have hlexes := hcolon.wordBefore hword (endsWord_cons (by decide))
  rw [String.ofList_toList, hkind] at hlexes
  simpa using hlexes

/-- Two texts with a comma and a blank between them. -/
theorem WrittenAs.comma {first second : List Char} {tokens others : List Token}
    (hfirst : WrittenAs first tokens) (hsecond : WrittenAs second others) :
    WrittenAs (first ++ ',' :: ' ' :: second) (tokens ++ ⟨.comma, some ","⟩ :: others) := by
  intro rest more hrest hends
  have hcomma : Lexes (',' :: ' ' :: (second ++ rest)) (⟨.comma, some ","⟩ :: (others ++ more)) :=
    ((hsecond hrest hends).blank (by decide)).mark (by decide) (by decide)
  simpa using hfirst hcomma (endsWord_cons (by decide))

/-- Parentheses around a text, an arrow and the text of a type. -/
theorem WrittenAs.function {inner result : List Char} {tokens others : List Token}
    (hinner : WrittenAs inner tokens) (hresult : WrittenAs result others) :
    WrittenAs ('(' :: (inner ++ ')' :: ' ' :: '-' :: '>' :: ' ' :: result))
      (⟨.leftParen, some "("⟩ ::
        (tokens ++ ⟨.rightParen, some ")"⟩ :: ⟨.arrow, some "->"⟩ :: others)) := by
  intro rest more hrest hends
  have harrow : Lexes (' ' :: '-' :: '>' :: ' ' :: (result ++ rest))
      (⟨.arrow, some "->"⟩ :: (others ++ more)) :=
    (((hresult hrest hends).blank (by decide)).arrow).blank (by decide)
  have hclose : Lexes (')' :: ' ' :: '-' :: '>' :: ' ' :: (result ++ rest))
      (⟨.rightParen, some ")"⟩ :: ⟨.arrow, some "->"⟩ :: (others ++ more)) :=
    harrow.mark (by decide) (by decide)
  have hinside := hinner hclose (endsWord_cons (by decide))
  have hkind : (String.ofList ['('], TokenKind.leftParen) ∈ operators := by decide
  simpa using hinside.mark hkind (by decide)

mutual

/-- The text of a type is lexed to tokens that derive the type. -/
theorem IsNamedType.written {tree : Tree} (h : IsNamedType tree) :
    ∃ tokens, IsType tree tokens ∧ WrittenAs tree.inline.toList tokens := by
  match h with
  | .basic name => exact ⟨_, .basic rfl rfl, writtenAs_dataType name⟩
  | @IsNamedType.function parameters result hparameters hresult =>
    have hleft : (⟨.leftParen, some "("⟩ : Token).kind = .leftParen := rfl
    have hright : (⟨.rightParen, some ")"⟩ : Token).kind = .rightParen := rfl
    have harrow : (⟨.arrow, some "->"⟩ : Token).kind = .arrow := rfl
    obtain ⟨resultTokens, hresultDerived, hresultWritten⟩ := hresult.written
    have htext : (Tree.functionType parameters result).inline.toList =
        '(' :: ((", ".intercalate (Tree.inlines parameters)).toList ++
          ')' :: ' ' :: '-' :: '>' :: ' ' :: result.inline.toList) := by
      simp [Tree.inline]
    rw [htext]
    cases parameters with
    | nil =>
      exact ⟨_, .constant hleft hright harrow hresultDerived,
        writtenAs_nil.function hresultWritten⟩
    | cons parameter others =>
      obtain ⟨tokens, hderived, hwritten⟩ := hparameters.written (List.cons_ne_nil _ _)
      exact ⟨_, .function hleft hderived hright harrow hresultDerived,
        hwritten.function hresultWritten⟩

theorem AreNamedParameters.written {parameters : List Tree} (h : AreNamedParameters parameters)
    (hne : parameters ≠ []) :
    ∃ tokens, AreParameters parameters tokens ∧
      WrittenAs (", ".intercalate (Tree.inlines parameters)).toList tokens := by
  match h with
  | .nil => exact absurd rfl hne
  | @AreNamedParameters.cons name type rest hname htype hparameters =>
    have hidentifier : (⟨.identifier, some name⟩ : Token).kind = .identifier := rfl
    have hcomma : (⟨.comma, some ","⟩ : Token).kind = .comma := rfl
    obtain ⟨typeTokens, htypeDerived, htypeWritten⟩ := htype.written
    have hderived : IsParameter (.parameter (some name) type)
        (⟨.identifier, some name⟩ :: ⟨.colon, some ":"⟩ :: typeTokens) :=
      .named hidentifier rfl htypeDerived
    have hwritten := htypeWritten.parameter hname
    have htext : (Tree.parameter (some name) type).inline.toList =
        name.toList ++ ':' :: ' ' :: type.inline.toList := by
      simp [Tree.inline, Lexeme.shown]
    rw [← htext] at hwritten
    cases rest with
    | nil => exact ⟨_, .one hderived, by simpa [Tree.inlines] using hwritten⟩
    | cons next others =>
      obtain ⟨tokens, hmore, hmoreWritten⟩ := hparameters.written (List.cons_ne_nil _ _)
      refine ⟨_, .more hderived hcomma hmore, ?_⟩
      simpa [Tree.inlines, String.intercalate_cons_cons] using hwritten.comma hmoreWritten

end

/-- The text of a type is lexed without an error, and the type is what is parsed from its tokens,
all of which it takes but for the end of the stream. -/
theorem typeRule_inline {tree : Tree} (htree : IsNamedType tree)
    (hnesting : tree.nesting ≤ nestingLimit) (file : String) :
    (lex tree.inline file).errors = [] ∧
      ∃ front after, (lex tree.inline file).tokens = front ++ [Token.endOfStream] ∧
        Rule.typeRule (lex tree.inline file).tokens.toArray nestingLimit {} = .ok tree after ∧
        after.index = front.length := by
  obtain ⟨tokens, hderived, hwritten⟩ := htree.written
  have hlexes : Lexes tree.inline.toList tokens := by
    simpa using hwritten lexes_nil endsWord_nil
  have htokens : (lex tree.inline file).tokens = tokens ++ [Token.endOfStream] := by
    rw [tokens_lex, hlexes.tokens]
  have hread : Reader.type (tokens ++ [Token.endOfStream]).length nestingLimit
      (tokens ++ [Token.endOfStream]) = .ok tree [Token.endOfStream] :=
    (meets_type _ nestingLimit hderived (Nat.le_refl _)).within hnesting
  have hfollows : Follows (tokens ++ [Token.endOfStream]).toArray
      (Rule.typeRule _ nestingLimit) (Reader.type _ nestingLimit) := follows_type nestingLimit
  have hagrees := hfollows {} (fun index _ ↦ by simp) (Nat.zero_le _)
  rw [List.size_toArray, Cursor.rest, List.drop_zero, hread] at hagrees
  obtain ⟨after, hrun, -, hrest, -, hbound, -⟩ := hagrees
  have hleft := congrArg List.length hrest
  rw [Cursor.length_rest, List.size_toArray, List.length_append, List.length_singleton] at hleft
  rw [List.size_toArray, List.length_append, List.length_singleton] at hbound
  refine ⟨(errors_lex_eq_nil_iff _ file).mpr hlexes.faults, tokens, after, htokens, ?_, by omega⟩
  rw [htokens]
  exact hrun

/-- A function that takes a function and a number and gives a function without parameters. -/
def curriedType : Tree :=
  .functionType
    [.parameter (some "f") (.functionType [.parameter (some "x_1") (.basicType .int)]
      (.basicType .float)), .parameter (some "let_") (.basicType .number)]
    (.functionType [] (.basicType .unit))

theorem typeRule_inline_curried :
    curriedType.inline = "(f: (x_1: int) -> float, let_: number) -> () -> unit" ∧
      IsNamedType curriedType ∧ curriedType.nesting = 2 ∧
      (lex "(f: (x_1: int) -> float, let_: number) -> () -> unit" "").errors = [] ∧
      ∃ after, Rule.typeRule
          (lex "(f: (x_1: int) -> float, let_: number) -> () -> unit" "").tokens.toArray
          nestingLimit {} = .ok curriedType after ∧ after.index = 20 := by
  have htext : curriedType.inline = "(f: (x_1: int) -> float, let_: number) -> () -> unit" := rfl
  have hnamed : IsNamedType curriedType := by
    refine .function (.cons ⟨"f", "", by decide⟩ (.function ?_ (.basic .float)) ?_)
      (.function .nil (.basic .unit))
    · exact .cons ⟨"x_1", "", by decide⟩ (.basic .int) .nil
    · exact .cons ⟨"let_", "", by decide⟩ (.basic .number) .nil
  have hlevels : curriedType.nesting = 2 := rfl
  obtain ⟨herrors, front, after, htokens, hrun, hindex⟩ :=
    typeRule_inline hnamed (by rw [hlevels]; decide) ""
  rw [htext] at herrors htokens hrun
  have hlength := congrArg List.length htokens
  rw [List.length_append, List.length_singleton, ← hindex] at hlength
  have hcount : (lex "(f: (x_1: int) -> float, let_: number) -> () -> unit" "").tokens.length =
      21 := by decide
  exact ⟨htext, hnamed, hlevels, herrors, after, hrun, by omega⟩

end LetLang
