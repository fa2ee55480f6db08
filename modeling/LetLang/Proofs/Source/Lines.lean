import LetLang.Proofs.Source.Joining
import LetLang.Proofs.Source.Places

/-!
# Lexing is local to lines

A text that is cut at a line feed can be lexed part by part, also where a part has faults
(`lex_lines`). The tokens of the whole are those of the first part, without the end of the stream,
and then those of the second. The errors are those of the first part and then those of the second,
the latter as many lines and characters further on as the first part and its line feed take up, and
in the columns that they have by themselves.

The pieces of the two parts are apart (`pieces_join`), so what is left to show is about places.
Errors are placed by a running position; moving the position where the run starts, by whole lines,
moves every place by as much (`Piece.locate_movedBy`).
-/

set_option autoImplicit false

namespace LetLang

/-! ### Moving places by whole lines -/

/-- The position some lines and some characters further on, in the same column. -/
def Position.movedBy (lines characters : Nat) (position : Position) : Position :=
  ⟨position.offset + characters, position.line + lines, position.column⟩

/-- The same error some lines and some characters further on, in the same column. -/
def LexError.movedBy (lines characters : Nat) (error : LexError) : LexError :=
  { error with
    place := { error.place with
      line := error.place.line + lines
      offset := error.place.offset + characters } }

section

variable (lines characters : Nat)

theorem Position.next_movedBy (position : Position) (c : Char) :
    (position.movedBy lines characters).next c =
      (position.next c).movedBy lines characters := by
  unfold next movedBy
  by_cases hline : c = '\n'
  · simp only [if_pos hline, Nat.add_right_comm]
  · simp only [if_neg hline, Nat.add_right_comm]

theorem Position.after_movedBy (position : Position) (text : List Char) :
    (position.movedBy lines characters).after text =
      (position.after text).movedBy lines characters := by
  induction text generalizing position with
  | nil => rfl
  | cons c text ih =>
    change ((position.movedBy lines characters).next c).after text = _
    rw [next_movedBy, ih]
    rfl

/-- What is located from a position that was moved is moved by as much. -/
theorem Piece.locate_movedBy (file : String) (position : Position) (found : List Piece) :
    (locate file (position.movedBy lines characters) found).1 =
      (locate file position found).1.map (LexError.movedBy lines characters) := by
  induction found generalizing position with
  | nil => rfl
  | cons piece found ih =>
    rw [locate, locate, Position.after_movedBy]
    cases piece.fault? with
    | none => exact ih (position.after piece.text)
    | some fault =>
      simp only [List.map_cons, ih]
      rfl

end

/-! ### One part after the other -/

/-- Pieces behind others are located from where those end. -/
theorem Piece.locate_append (file : String) (position : Position) (front found : List Piece) :
    (locate file position (front ++ found)).1 =
      (locate file position front).1 ++
        (locate file (position.after (front.flatMap text)) found).1 := by
  induction front generalizing position with
  | nil => rfl
  | cons piece front ih =>
    rw [List.cons_append, locate, locate, List.flatMap_cons, Position.after_append]
    cases piece.fault? with
    | none => exact ih (position.after piece.text)
    | some fault => simp only [List.cons_append, ih]

/-- Behind a line feed a line starts, and every place is moved by what came before. -/
theorem Position.after_line (text : List Char) :
    ({} : Position).after (text ++ ['\n']) =
      ({} : Position).movedBy (1 + text.count '\n') (text.length + 1) := by
  rw [Position.after_eq, columnAfter_concat, if_pos rfl, movedBy, List.length_append,
    List.count_append]
  simp [Nat.add_comm]

/-- A text that is cut at a line feed is lexed part by part, whether the parts have faults or
not. -/
theorem lex_lines (first second file : String) :
    ∃ front, (lex first file).tokens = front ++ [Token.endOfStream] ∧
      (lex (first ++ "\n" ++ second) file).tokens = front ++ (lex second file).tokens ∧
      (lex (first ++ "\n" ++ second) file).errors =
        (lex first file).errors ++
          (lex second file).errors.map
            (LexError.movedBy (1 + first.toList.count '\n') (first.length + 1)) := by
  have htext : (first ++ "\n" ++ second).toList = first.toList ++ '\n' :: second.toList := by
    simp
  have hpieces : pieces (first ++ "\n" ++ second).toList =
      (pieces first.toList ++ [.blank '\n']) ++ pieces second.toList := by
    rw [htext, pieces_join, List.append_assoc, List.singleton_append]
  refine ⟨tokensOf first.toList, tokens_lex first file, ?_, ?_⟩
  · rw [tokens_lex, tokens_lex, tokensOf, hpieces, List.filterMap_append, List.filterMap_append,
      List.append_assoc]
    simp [Piece.token?, tokensOf]
  · have hline : (pieces first.toList ++ [Piece.blank '\n']).flatMap Piece.text =
        first.toList ++ ['\n'] := by
      rw [List.flatMap_append, flatMap_text_pieces]
      rfl
    have hfront : (Piece.locate file {} (pieces first.toList ++ [.blank '\n'])).1 =
        (lex first file).errors := by
      rw [Piece.locate_append]
      exact List.append_nil _
    calc (lex (first ++ "\n" ++ second) file).errors
        = (Piece.locate file {}
            ((pieces first.toList ++ [.blank '\n']) ++ pieces second.toList)).1 := by
          rw [← hpieces]
          rfl
      _ = (lex first file).errors ++
            (Piece.locate file (({} : Position).after (first.toList ++ ['\n']))
              (pieces second.toList)).1 := by
          rw [Piece.locate_append, hfront, hline]
      _ = _ := by
          rw [Position.after_line, Piece.locate_movedBy, String.length_toList]
          rfl

/-- The first text stops inside a number and the second starts with what would go on with it; both
the point and the stray character behind the line feed are reported. -/
example : (lex ("#\n1." ++ "\n" ++ "5 @") "").errors =
    [⟨.malformedNumber "1.", "", 2, 1, 2⟩, ⟨.invalidCharacter '@', "", 3, 3, 7⟩] := by decide

end LetLang
