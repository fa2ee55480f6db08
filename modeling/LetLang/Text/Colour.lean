/-!
# Colours of the terminal

A text is put in a colour by an escape sequence before it and one after it: the escape character, an
opening bracket, parameters and a letter. Where no colours are wanted, all such sequences are taken
out of what is shown (`Text.dropEscapes`).
-/

set_option autoImplicit false

namespace LetLang.Text

/-- The colours that are used, by their codes. -/
inductive Colour
  | red
  | green
  deriving DecidableEq

/-- The code of a colour. -/
def Colour.code : Colour → Nat
  | red => 31
  | green => 32

/-- A text in a colour. -/
def coloured (colour : Colour) (text : String) : String :=
  "\x1b[" ++ toString colour.code ++ "m" ++ text ++ "\x1b[0m"

/-- Whether a character may be among the parameters of an escape sequence. -/
def isEscapeParameter (c : Char) : Bool := c.isDigit || c == ';' || c == '?'

/-- What follows an escape sequence, given what follows its escape character; `none` if there is no
whole sequence. -/
def afterEscape? : List Char → Option (List Char)
  | '[' :: rest =>
    match rest.dropWhile isEscapeParameter with
    | letter :: after => if letter.isAlpha then some after else none
    | [] => none
  | _ => none

/-- A text without its escape sequences, looked through in at most the given number of steps. -/
def dropEscapesWithin : Nat → List Char → List Char
  | 0, text => text
  | _ + 1, [] => []
  | steps + 1, c :: rest =>
    if c = '\x1b' then
      match afterEscape? rest with
      | some after => dropEscapesWithin steps after
      | none => c :: dropEscapesWithin steps rest
    else c :: dropEscapesWithin steps rest

/-- A text without its escape sequences. -/
def dropEscapes (text : String) : String :=
  String.ofList (dropEscapesWithin text.length text.toList)

/-- A text as it is shown, with its colours or without. -/
def inColours (colours : Bool) (text : String) : String :=
  if colours then text else dropEscapes text

end LetLang.Text
