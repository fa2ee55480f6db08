/-!
# Padding and hexadecimal text

Padding to a width, and hexadecimal text. A width counts characters, and a text that is already as
wide as asked for is left as it is.
-/

set_option autoImplicit false

namespace LetLang.Text

/-- A text brought to a width by repeating a character before it. -/
def padLeft (fill : Char) (width : Nat) (text : String) : String :=
  String.ofList (List.replicate (width - text.length) fill ++ text.toList)

/-- A text brought to a width by repeating a character after it. -/
def padRight (fill : Char) (width : Nat) (text : String) : String :=
  String.ofList (text.toList ++ List.replicate (width - text.length) fill)

/-- A number in hexadecimal, in small letters and without leading zeros. -/
def hexText (n : Nat) : String := String.ofList (Nat.toDigits 16 n)

/-- A number in hexadecimal with leading zeros up to a width. -/
def hexField (width n : Nat) : String := padLeft '0' width (hexText n)

end LetLang.Text
