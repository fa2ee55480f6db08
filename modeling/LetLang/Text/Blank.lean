import LetLang.Text.Ranges

/-!
# Blank characters

Blank characters: those that separate the pieces of a source text and are trimmed from the end of a
line of output. `isMargin` is the smaller class that may surround the text of a number; it leaves
out the four ASCII information separators.
-/

set_option autoImplicit false

namespace LetLang.Text

/-- The code points of the blank characters, as increasing closed intervals. -/
def blankRanges : List (Nat × Nat) :=
  [(0x9, 0xd), (0x1c, 0x20), (0x85, 0x85), (0xa0, 0xa0), (0x1680, 0x1680), (0x2000, 0x200a),
   (0x2028, 0x2029), (0x202f, 0x202f), (0x205f, 0x205f), (0x3000, 0x3000)]

/-- Whether a character is blank. -/
def isBlank (c : Char) : Bool := inRanges blankRanges c.toNat

/-- Whether a character may stand before or after the text of a number. -/
def isMargin (c : Char) : Bool := isBlank c && !(28 ≤ c.toNat && c.toNat ≤ 31)

/-- A text without the blank characters at its end. -/
def trimRight (text : String) : String :=
  String.ofList (text.toList.reverse.dropWhile isBlank).reverse

end LetLang.Text
