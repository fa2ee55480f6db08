import LetLang.Number.Binary64
import LetLang.Text.Blank
import LetLang.Text.Numeral

/-!
# Reading numbers from text

Reading numbers from text. A digit is a decimal digit of any script.

Three readers of different width. `plainNumber?` reads what the source language allows: digits, with
or without a point and more digits. `readInteger?` and `readDouble?` read the text of a literal that
was already classed as an integer or a floating-point one: both allow blanks around the text, a sign
and single underscores between digits, and the second also an exponent, a missing side of the point,
and the words for infinity and nan.
-/

set_option autoImplicit false

namespace LetLang

open Text

/-- The number written by a list of digit values, most significant first. -/
def ofDigits (digits : List Nat) : Nat := digits.foldl (fun value digit => value * 10 + digit) 0

/-- The values of a text that consists of decimal digits only. -/
def digitValues? (text : List Char) : Option (List Nat) := text.mapM decimalValue?

/-! ### Digits with an optional fraction -/

/-- The digits of a number: those before the point and, if there is a point, those after it. -/
structure PlainNumber where
  whole : List Nat
  fraction? : Option (List Nat)
  deriving DecidableEq

/-- Reads one or more decimal digits, and optionally a point and one or more further digits. -/
def plainNumber? (text : List Char) : Option PlainNumber := do
  let (whole, rest) := text.span isDecimalDigit
  let digits ← digitValues? whole
  if digits.isEmpty then none
  else
    match rest with
    | [] => some ⟨digits, none⟩
    | point :: after =>
      if point = '.' && !after.isEmpty then return ⟨digits, some (← digitValues? after)⟩ else none

/-- The double nearest to a number. -/
def PlainNumber.toBinary64 (number : PlainNumber) : Binary64 :=
  let fraction := number.fraction?.getD []
  Binary64.ofDecimal (ofDigits (number.whole ++ fraction)) (-(fraction.length : Int))

/-! ### Literals of a known class -/

/-- The greatest number of digits that is converted to an integer. -/
def digitLimit : Nat := 4300

/-- A text without the blanks around it. -/
def trimMargins (text : List Char) : List Char :=
  ((text.dropWhile isMargin).reverse.dropWhile isMargin).reverse

/-- A text without its sign, and whether the sign is negative. -/
def splitSign : List Char → Bool × List Char
  | '-' :: rest => (true, rest)
  | '+' :: rest => (false, rest)
  | text => (false, text)

/-- One or more decimal digits, with at most one underscore between two of them. -/
def groupedDigits? : List Char → Option (List Nat)
  | [] => none
  | [c] => (decimalValue? c).map ([·])
  | c :: '_' :: rest => do return (← decimalValue? c) :: (← groupedDigits? rest)
  | c :: rest => do return (← decimalValue? c) :: (← groupedDigits? rest)

/-- Reads the text of an integer literal. -/
def readInteger? (text : String) : Option Int := do
  let (negative, rest) := splitSign (trimMargins text.toList)
  let digits ← groupedDigits? rest
  if digitLimit < digits.length then none
  else some (if negative then -(ofDigits digits : Int) else ofDigits digits)

/-- A text without its underscores, provided that each stands between two digits. -/
def dropUnderscores? : List Char → Option (List Char)
  | [] => some []
  | '_' :: _ => none
  | c :: '_' :: next :: rest =>
    if isDecimalDigit c && isDecimalDigit next then
      (dropUnderscores? (next :: rest)).map (c :: ·)
    else none
  | c :: rest => (dropUnderscores? rest).map (c :: ·)

/-- Reads an exponent: nothing at all, or the letter `e` with a signed number after it. -/
def exponent? : List Char → Option Int
  | [] => some 0
  | mark :: rest => do
    if mark.toLower ≠ 'e' then none
    let (negative, digits) := splitSign rest
    let values ← digitValues? digits
    if values.isEmpty then none
    else some (if negative then -(ofDigits values : Int) else ofDigits values)

/-- Reads digits with a point somewhere among them, or none, and an optional exponent. -/
def decimalDouble? (text : List Char) : Option Binary64 := do
  let (whole, rest) := text.span isDecimalDigit
  let (fraction, rest) :=
    match rest with
    | '.' :: after => after.span isDecimalDigit
    | _ => ([], rest)
  let digits ← digitValues? (whole ++ fraction)
  if digits.isEmpty then none
  else return Binary64.ofDecimal (ofDigits digits) ((← exponent? rest) - fraction.length)

/-- Reads a floating-point number without a sign. -/
def unsignedDouble? (text : List Char) : Option Binary64 :=
  let word := String.ofList (text.map Char.toLower)
  if word = "inf" || word = "infinity" then some Binary64.infinity
  else if word = "nan" then some Binary64.nan
  else decimalDouble? text

/-- Reads the text of a floating-point literal. -/
def readDouble? (text : String) : Option Binary64 := do
  let body ← dropUnderscores? (trimMargins text.toList)
  let (negative, rest) := splitSign body
  return (← unsignedDouble? rest).withSign negative

end LetLang
