import LetLang.Proofs.Source.Pieces
import LetLang.Source.Lexing

/-!
# Lexing reports the split of a text

A source text has one split into longest pieces, and lexing it gives one token for every word,
number and operator of the split and one error for every malformed number and stray character, each
in the order of the pieces (`lex_split`). An error is placed where its piece starts: the offset is
the number of characters before it, the line is one more than the line feeds among them, and the
column counts from the last of these (`placeAfter`).

Lexing goes along the pieces with a running position. What that position is after a text follows
from the text alone (`Position.after_eq`), so the place of an error can be said without the pieces
before it.
-/

set_option autoImplicit false

namespace LetLang

/-! ### Places -/

/-- The column after a text: the distance from the last line feed in it, or from the character
before the text if there is none. -/
def columnAfter (before : List Char) : Nat := (before.reverse.takeWhile (· != '\n')).length + 1

/-- The place in a file that comes after a text. -/
def placeAfter (file : String) (before : List Char) : Location :=
  ⟨file, 1 + before.count '\n', columnAfter before, before.length⟩

theorem columnAfter_concat (before : List Char) (c : Char) :
    columnAfter (before ++ [c]) = if c = '\n' then 1 else columnAfter before + 1 := by
  unfold columnAfter
  by_cases hline : c = '\n' <;> simp [hline]

/-- The position that is reached by reading a text. -/
theorem Position.after_eq (before : List Char) :
    ({} : Position).after before =
      ⟨before.length, 1 + before.count '\n', columnAfter before⟩ := by
  induction before using List.reverseRecOn with
  | nil => rfl
  | append_singleton before c ih =>
    have hstep : ({} : Position).after (before ++ [c]) = (({} : Position).after before).next c := by
      simp [Position.after]
    rw [hstep, ih, Position.next, columnAfter_concat]
    by_cases hline : c = '\n'
    · simp [hline, Nat.add_assoc]
    · simp [hline]

theorem Position.after_append (position : Position) (first second : List Char) :
    position.after (first ++ second) = (position.after first).after second :=
  List.foldl_append

theorem Position.inFile_after (file : String) (before : List Char) :
    (({} : Position).after before).inFile file = placeAfter file before := by
  rw [Position.after_eq]
  rfl

/-! ### Tokens -/

namespace Piece

/-- Whether a piece is one that has a token. -/
def isLexical : Piece → Bool
  | word _ | number _ | operator _ _ => true
  | _ => false

/-- The token that a piece stands for, its kind given by the tables and its lexeme the text. -/
inductive Denotes : Piece → Token → Prop
  | keyword {text : List Char} (hkeyword : String.ofList text ∈ keywords) :
      Denotes (word text) ⟨.keyword, some (String.ofList text)⟩
  | dataType {text : List Char} (hname : String.ofList text ∈ dataTypeNames) :
      Denotes (word text) ⟨.dataType, some (String.ofList text)⟩
  | identifier {text : List Char} (hkeyword : String.ofList text ∉ keywords)
      (hname : String.ofList text ∉ dataTypeNames) :
      Denotes (word text) ⟨.identifier, some (String.ofList text)⟩
  | number {text : List Char} : Denotes (number text) ⟨.numberLiteral, some (String.ofList text)⟩
  | operator {kind : TokenKind} {text : List Char}
      (hkind : (String.ofList text, kind) ∈ operators) :
      Denotes (operator kind text) ⟨kind, some (String.ofList text)⟩

theorem denotes_word (text : List Char) :
    Denotes (word text) ⟨wordKind (String.ofList text), some (String.ofList text)⟩ := by
  unfold wordKind
  split
  · next hkeyword => exact .keyword (List.contains_iff_mem.mp hkeyword)
  next hkeyword =>
  rw [List.contains_iff_mem] at hkeyword
  split
  · next hname => exact .dataType (List.contains_iff_mem.mp hname)
  · next hname =>
    rw [List.contains_iff_mem] at hname
    exact .identifier hkeyword hname

theorem mem_operators_of_heads {kind : TokenKind} {text rest : List Char}
    (hheads : Heads (operator kind text) rest) : (String.ofList text, kind) ∈ operators := by
  cases hheads with
  | longest hfits _ =>
    cases hfits with
    | operator hkind => exact hkind

end Piece

/-- The tokens of a split are those of its words, numbers and operators. -/
theorem IsSplit.denotes {text : List Char} {split : List Piece} (hsplit : IsSplit text split) :
    List.Forall₂ Piece.Denotes (split.filter Piece.isLexical) (split.filterMap Piece.token?) := by
  induction hsplit with
  | nil => exact .nil
  | @cons piece rest split hpiece hrest ih =>
    cases piece with
    | word text => exact .cons (Piece.denotes_word text) ih
    | number text => exact .cons .number ih
    | operator kind text => exact .cons (.operator (Piece.mem_operators_of_heads hpiece)) ih
    | _ => exact ih

/-! ### Errors -/

/-- Pieces, each with the text before it, where the first comes after a given text. -/
def placed (before : List Char) : List Piece → List (List Char × Piece)
  | [] => []
  | piece :: rest => (before, piece) :: placed (before ++ piece.text) rest

/-- Whether a piece is one that has an error. -/
def Piece.isFaulty : Piece → Bool
  | malformedNumber _ | stray _ => true
  | _ => false

/-- The error for a piece that stands behind a text. -/
inductive Reports (file : String) : List Char × Piece → LexError → Prop
  | malformedNumber {before text : List Char} {error : LexError}
      (hfault : error.fault = .malformedNumber (String.ofList text))
      (hcode : error.fault.code = "L002") (hplace : error.place = placeAfter file before) :
      Reports file (before, .malformedNumber text) error
  | stray {before : List Char} {c : Char} {error : LexError}
      (hfault : error.fault = .invalidCharacter c) (hcode : error.fault.code = "L001")
      (hplace : error.place = placeAfter file before) : Reports file (before, .stray c) error

/-- Going along pieces from where a text ends reports the faulty ones, each where it starts. -/
theorem reports_locate (file : String) (split : List Piece) (before : List Char) :
    List.Forall₂ (Reports file) ((placed before split).filter (·.2.isFaulty))
        (Piece.locate file (({} : Position).after before) split).1 ∧
      (Piece.locate file (({} : Position).after before) split).2 =
        ({} : Position).after (before ++ split.flatMap Piece.text) := by
  induction split generalizing before with
  | nil => exact ⟨.nil, by simp [Piece.locate]⟩
  | cons piece split ih =>
    obtain ⟨herrors, hfinal⟩ := ih (before ++ piece.text)
    rw [Position.after_append] at herrors hfinal
    have hplace := Position.inFile_after file before
    rw [List.flatMap_cons, ← List.append_assoc, ← hfinal]
    cases piece with
    | malformedNumber text => exact ⟨.cons (.malformedNumber rfl rfl hplace) herrors, rfl⟩
    | stray c => exact ⟨.cons (.stray rfl rfl hplace) herrors, rfl⟩
    | _ => exact ⟨herrors, rfl⟩

/-! ### Lexing -/

/-- A source text has one split into longest pieces. Its tokens are those of the words, numbers and
operators of the split, with the end of the stream behind them; its errors are those of the
malformed numbers and the stray characters, each placed where its piece starts; and lexing ends
where the text ends. -/
theorem lex_split (source file : String) :
    ∃ split, IsSplit source.toList split ∧
      (∀ other, IsSplit source.toList other → other = split) ∧
      (∃ front, (lex source file).tokens = front ++ [Token.endOfStream] ∧
        List.Forall₂ Piece.Denotes (split.filter Piece.isLexical) front) ∧
      List.Forall₂ (Reports file) ((placed [] split).filter (·.2.isFaulty))
        (lex source file).errors ∧
      (lex source file).final =
        ⟨source.length, 1 + source.toList.count '\n', columnAfter source.toList⟩ := by
  have hsplit := isSplit_pieces source.toList
  obtain ⟨herrors, hfinal⟩ := reports_locate file (pieces source.toList) []
  refine ⟨pieces source.toList, hsplit, fun other ↦ isSplit_iff.mp, ⟨_, rfl, hsplit.denotes⟩,
    herrors, ?_⟩
  rw [List.nil_append, flatMap_text_pieces] at hfinal
  rw [← String.length_toList, ← Position.after_eq]
  exact hfinal

end LetLang
