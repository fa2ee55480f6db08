import LetLang.Text.Blank
import LetLang.Text.Letter
import LetLang.Text.Numeral
import LetLang.Token

/-!
# The pieces of a source text

The pieces of a source text. Read from the left, a text falls into blanks, comments, words, numbers,
operators, malformed numbers and stray characters, each as long as its class allows. `Piece.first`
cuts the first piece off a text and `pieces` cuts the whole text; putting the pieces' texts together
gives the text back (`flatMap_text_pieces`), and no piece is empty.
-/

set_option autoImplicit false

namespace LetLang

open Text

/-- A piece of a source text. -/
inductive Piece
  /-- One blank character. -/
  | blank (c : Char)
  /-- A comment: its mark and everything up to the end of the line. -/
  | comment (text : List Char)
  /-- A keyword, the name of a data type or an identifier. -/
  | word (text : List Char)
  /-- Digits, possibly with a point and further digits. -/
  | number (text : List Char)
  /-- An operator, with its kind. -/
  | operator (kind : TokenKind) (text : List Char)
  /-- Digits and a point without a digit after it. -/
  | malformedNumber (text : List Char)
  /-- A character that starts no other piece. -/
  | stray (c : Char)
  deriving DecidableEq

namespace Piece

/-- The part of the source that a piece is. -/
def text : Piece → List Char
  | blank c => [c]
  | comment text => text
  | word text => text
  | number text => text
  | operator _ text => text
  | malformedNumber text => text
  | stray c => [c]

/-- Whether a character may start a word. -/
def startsWord (c : Char) : Bool := isLetter c || c == '_'

/-- Whether a character may continue a word. -/
def continuesWord (c : Char) : Bool := isLetter c || isNumeral c || c == '_'

/-- The number at the start of a text whose first character is the digit `digit`, and what follows
it. A point is part of the number, and makes it malformed unless a digit comes next. -/
def numberFirst (digit : Char) (rest : List Char) : Piece × List Char :=
  let digits := digit :: rest.takeWhile isDigit
  match rest.dropWhile isDigit with
  | '.' :: after =>
    if (after.takeWhile isDigit).isEmpty then (malformedNumber (digits ++ ['.']), after)
    else (number (digits ++ '.' :: after.takeWhile isDigit), after.dropWhile isDigit)
  | after => (number digits, after)

/-- The operator of one character at the start of a text, and what follows it; a character that is
no operator is stray. -/
def shortOperatorFirst (c : Char) (rest : List Char) : Piece × List Char :=
  match operatorKind? (String.ofList [c]) with
  | some kind => (operator kind [c], rest)
  | none => (stray c, rest)

/-- The operator at the start of a text, one of two characters before one of a single character,
and what follows it. -/
def operatorFirst (c : Char) : List Char → Piece × List Char
  | [] => shortOperatorFirst c []
  | next :: rest =>
    match operatorKind? (String.ofList [c, next]) with
    | some kind => (operator kind [c, next], rest)
    | none => shortOperatorFirst c (next :: rest)

/-- The first piece of a text that starts with `c`, and what follows it. -/
def first (c : Char) (rest : List Char) : Piece × List Char :=
  if isBlank c then (blank c, rest)
  else if c = '#' then (comment (c :: rest.takeWhile (· != '\n')), rest.dropWhile (· != '\n'))
  else if startsWord c then
    (word (c :: rest.takeWhile continuesWord), rest.dropWhile continuesWord)
  else if isDigit c then numberFirst c rest
  else operatorFirst c rest

/-- The pieces of a text, found in at most the given number of cuts. -/
def cut : Nat → List Char → List Piece
  | 0, _ => []
  | _ + 1, [] => []
  | cuts + 1, c :: rest => (first c rest).1 :: cut cuts (first c rest).2

end Piece

/-- The pieces of a text. Each has at least one character, so a text needs no more cuts than it has
characters. -/
def pieces (text : List Char) : List Piece := Piece.cut text.length text

/-! ### Nothing is lost -/

namespace Piece

theorem text_numberFirst (digit : Char) (rest : List Char) :
    (numberFirst digit rest).1.text ++ (numberFirst digit rest).2 = digit :: rest := by
  have hrest : rest.takeWhile isDigit ++ rest.dropWhile isDigit = rest :=
    List.takeWhile_append_dropWhile
  unfold numberFirst
  split
  · next after hafter =>
    rw [hafter] at hrest
    split
    · simpa [text] using hrest
    · simpa [text] using hrest
  · simp [text]

theorem text_shortOperatorFirst (c : Char) (rest : List Char) :
    (shortOperatorFirst c rest).1.text ++ (shortOperatorFirst c rest).2 = c :: rest := by
  unfold shortOperatorFirst
  split <;> simp [text]

theorem text_operatorFirst (c : Char) (rest : List Char) :
    (operatorFirst c rest).1.text ++ (operatorFirst c rest).2 = c :: rest := by
  unfold operatorFirst
  split
  · exact text_shortOperatorFirst c []
  · split
    · simp [text]
    · exact text_shortOperatorFirst c _

/-- The first piece and what follows it make up the text. -/
theorem text_first (c : Char) (rest : List Char) :
    (first c rest).1.text ++ (first c rest).2 = c :: rest := by
  unfold first
  split
  · simp [text]
  · split
    · simp [text]
    · split
      · simp [text]
      · split
        · exact text_numberFirst c rest
        · exact text_operatorFirst c rest

theorem text_numberFirst_ne_nil (digit : Char) (rest : List Char) :
    (numberFirst digit rest).1.text ≠ [] := by
  unfold numberFirst
  split
  · split <;> simp [text]
  · simp [text]

theorem text_shortOperatorFirst_ne_nil (c : Char) (rest : List Char) :
    (shortOperatorFirst c rest).1.text ≠ [] := by
  unfold shortOperatorFirst
  split <;> simp [text]

theorem text_operatorFirst_ne_nil (c : Char) (rest : List Char) :
    (operatorFirst c rest).1.text ≠ [] := by
  unfold operatorFirst
  split
  · exact text_shortOperatorFirst_ne_nil c []
  · split
    · simp [text]
    · exact text_shortOperatorFirst_ne_nil c _

/-- A first piece is not empty. -/
theorem text_first_ne_nil (c : Char) (rest : List Char) : (first c rest).1.text ≠ [] := by
  unfold first
  split
  · simp [text]
  · split
    · simp [text]
    · split
      · simp [text]
      · split
        · exact text_numberFirst_ne_nil c rest
        · exact text_operatorFirst_ne_nil c rest

/-- Cutting a piece off leaves a shorter text. -/
theorem length_first_lt (c : Char) (rest : List Char) :
    (first c rest).2.length < (c :: rest).length := by
  have hlength := congrArg List.length (text_first c rest)
  have hpos := List.length_pos_iff.mpr (text_first_ne_nil c rest)
  simp only [List.length_append] at hlength
  omega

/-- Once there are as many cuts as characters, their number does not matter. -/
theorem cut_congr {cuts others : Nat} {text : List Char} (hcuts : text.length ≤ cuts)
    (hothers : text.length ≤ others) : cut cuts text = cut others text := by
  induction cuts generalizing others text with
  | zero =>
    have hnil : text = [] := List.length_eq_zero_iff.mp (by omega)
    subst hnil
    cases others <;> rfl
  | succ cuts ih =>
    match others, text, hothers with
    | 0, [], _ => rfl
    | _ + 1, [], _ => rfl
    | others + 1, c :: rest, hothers =>
      have hlt := length_first_lt c rest
      simp only [List.length_cons] at hcuts hothers hlt
      simp only [cut]
      rw [ih (by omega) (by omega : (first c rest).2.length ≤ others)]

end Piece

@[simp] theorem pieces_nil : pieces [] = [] := rfl

/-- The pieces of a text are its first piece and the pieces of what follows. -/
theorem pieces_cons (c : Char) (rest : List Char) :
    pieces (c :: rest) = (Piece.first c rest).1 :: pieces (Piece.first c rest).2 := by
  have hlt := Piece.length_first_lt c rest
  simp only [List.length_cons] at hlt
  simp only [pieces, Piece.cut, List.length_cons]
  rw [Piece.cut_congr (by omega : _ ≤ rest.length) (Nat.le_refl _)]

/-- The texts of the pieces make up the text. -/
theorem flatMap_text_pieces (text : List Char) : (pieces text).flatMap Piece.text = text := by
  induction hlength : text.length using Nat.strongRecOn generalizing text with
  | ind length ih =>
    match text with
    | [] => rfl
    | c :: rest =>
      have hlt := Piece.length_first_lt c rest
      rw [pieces_cons, List.flatMap_cons, ih _ (by omega) _ rfl]
      exact Piece.text_first c rest

end LetLang
