import LetLang.Diagnostic
import LetLang.Source.Piece
import LetLang.Text.Padding
import LetLang.Text.Printable
import LetLang.Trace

/-!
# Lexing

Lexing: the pieces of a source text become tokens and located errors. Words, numbers and operators
give one token each, malformed numbers and stray characters one error each, blanks and comments
nothing; the tokens end with an `endOfStream` token. Lexing goes on after an error, so `lex` reports
all of them, while `tokenize` stops at the first.
-/

set_option autoImplicit false

namespace LetLang

/-! ### Places in a source text -/

/-- How far a text has been read. -/
structure Position where
  offset : Nat := 0
  line : Nat := 1
  column : Nat := 1
  deriving DecidableEq, Inhabited

/-- The position after one more character: a line feed starts a line, any other character takes one
column. -/
def Position.next (position : Position) (c : Char) : Position :=
  if c = '\n' then ⟨position.offset + 1, position.line + 1, 1⟩
  else ⟨position.offset + 1, position.line, position.column + 1⟩

/-- The position after a text. -/
def Position.after (position : Position) (text : List Char) : Position :=
  text.foldl Position.next position

/-- A position as a place in a file. -/
def Position.inFile (position : Position) (file : String) : Location :=
  ⟨file, position.line, position.column, position.offset⟩

/-! ### Errors -/

/-- What is wrong with a piece of source text. -/
inductive LexFault
  /-- A character that starts no token. -/
  | invalidCharacter (c : Char)
  /-- Digits and a point without a digit after it. -/
  | malformedNumber (text : String)
  deriving DecidableEq

/-- A fault and the place where its piece starts. -/
structure LexError where
  fault : LexFault
  place : Location
  deriving DecidableEq

/-- Operators that a character may have been meant for, by their look. -/
def lookalikes : List (String × List String) :=
  [("!", ["!="]), ("&", ["*"]), ("%", ["/"]), ("[", ["("]), ("]", [")"])]

/-- Up to three operators to suggest in place of a text: those of two characters that start with
it, then those that look like it, each once. -/
def suggestOperators (text : String) : List String :=
  let starting := (operators.map Prod.fst).filter fun operator =>
    1 < operator.length && text.toList.isPrefixOf operator.toList
  (starting ++ (lookalikes.lookup text).getD []).eraseDups.take 3

namespace LexFault

/-- The code of a fault. -/
def code : LexFault → String
  | invalidCharacter _ => "L001"
  | malformedNumber _ => "L002"

/-- What a fault is called. -/
def message : LexFault → String
  | invalidCharacter c => "Invalid character: '" ++ c.toString ++ "'"
  | malformedNumber text => "Invalid numeric literal: '" ++ text ++ "'"

/-- The explanation of a fault; a character that cannot be shown is named by its code point. -/
def help : LexFault → String
  | invalidCharacter c =>
    if Text.isPrintable c then
      "The character '" ++ c.toString ++ "' is not valid in Functor source code."
    else
      "Non-printable character (Unicode: U+"
        ++ (Text.hexField 4 c.toNat).map Char.toUpper ++ ") is not allowed."
  | malformedNumber _ => "A decimal point must be followed by at least one digit."

/-- What to write instead. -/
def suggestions : LexFault → List String
  | invalidCharacter c =>
    (suggestOperators c.toString).map fun text => "Did you mean '" ++ text ++ "'?"
  | malformedNumber _ => ["Write the fraction as digits after the dot, e.g. '1.0'"]

/-- The codes of the faults and what they stand for. -/
def codeTable : List (String × String) :=
  [("L001", "Invalid character"), ("L002", "Invalid numeric literal")]

end LexFault

/-- The report of a lexical error. -/
def LexError.diagnostic (error : LexError) : Diagnostic :=
  { message := error.fault.message, code? := some error.fault.code
    help? := some error.fault.help, suggestions := error.fault.suggestions
    place? := some error.place }

/-! ### From pieces to tokens -/

namespace Piece

/-- The token of a piece, if it has one. -/
def token? : Piece → Option Token
  | word text => some ⟨wordKind (String.ofList text), some (String.ofList text)⟩
  | number text => some ⟨.numberLiteral, some (String.ofList text)⟩
  | operator kind text => some ⟨kind, some (String.ofList text)⟩
  | _ => none

/-- The fault of a piece, if it has one. -/
def fault? : Piece → Option LexFault
  | malformedNumber text => some (.malformedNumber (String.ofList text))
  | stray c => some (.invalidCharacter c)
  | _ => none

/-- The errors of pieces that start at a position, and the position after them. -/
def locate (file : String) : Position → List Piece → List LexError × Position
  | position, [] => ([], position)
  | position, piece :: rest =>
    let (errors, final) := locate file (position.after piece.text) rest
    match piece.fault? with
    | some fault => (⟨fault, position.inFile file⟩ :: errors, final)
    | none => (errors, final)

end Piece

/-- The result of lexing: the tokens, the errors in the order of their places, and the position
after the last character. -/
structure Lexed where
  tokens : List Token
  errors : List LexError
  final : Position

/-- Lexes a source text. -/
def lex (source : String) (file : String) : Lexed :=
  let found := pieces source.toList
  let (errors, final) := Piece.locate file {} found
  ⟨found.filterMap Piece.token? ++ [Token.endOfStream], errors, final⟩

/-- The event of having lexed a file. -/
def Lexed.event (lexed : Lexed) (file : String) : Event :=
  .lexed file lexed.tokens.length lexed.errors.length

/-- The tokens of a source text, or its first error. -/
def tokenize (source : String) (file : String) : Except LexError (List Token) :=
  let lexed := lex source file
  match lexed.errors with
  | [] => .ok lexed.tokens
  | error :: _ => .error error

end LetLang
