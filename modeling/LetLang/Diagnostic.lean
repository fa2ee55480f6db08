import LetLang.Text.Uppercase

/-!
# Diagnostics

Diagnostics, the shape in which every stage reports a failure. A diagnostic of the lexer points to a
place in a source text, one of the parser to a token by its index, and later ones to neither.
`Diagnostic.text` lays a diagnostic out over several lines, the last of which is also ended.
-/

set_option autoImplicit false

namespace LetLang

/-- A place in a source text. Lines and columns count from one, the offset from zero, all in
characters. -/
structure Location where
  file : String
  line : Int
  column : Int
  offset : Int
  deriving DecidableEq

/-- A place as it is shown in a diagnostic. -/
def Location.text (place : Location) : String :=
  place.file ++ ":" ++ toString place.line ++ ":" ++ toString place.column

/-- A report on the program being processed. -/
structure Diagnostic where
  message : String
  severity : String := "error"
  code? : Option String := none
  help? : Option String := none
  suggestions : List String := []
  place? : Option Location := none
  position? : Option Int := none
  deriving DecidableEq

namespace Diagnostic

/-- The line that points to where the trouble is; a place in the source is preferred to a token. -/
def pointer (report : Diagnostic) : String :=
  match report.place?, report.position? with
  | some place, _ => "  --> " ++ place.text ++ "\n"
  | none, some position => "  --> token " ++ toString position ++ "\n"
  | none, none => ""

/-- A part of a diagnostic that is left out when it is absent or empty. -/
def optionalPart (before : String) (part? : Option String) (after : String) : String :=
  match part? with
  | some part => if part.isEmpty then "" else before ++ part ++ after
  | none => ""

/-- The list of suggestions, left out when there are none. -/
def suggestionLines (suggestions : List String) : String :=
  if suggestions.isEmpty then ""
  else "  suggestions:\n" ++ String.join (suggestions.map fun line => "    - " ++ line ++ "\n")

/-- A diagnostic in full. -/
def text (report : Diagnostic) : String :=
  Text.uppercase report.severity ++ optionalPart "[" report.code? "]" ++ ": " ++ report.message
    ++ "\n" ++ report.pointer ++ optionalPart "  help: " report.help? "\n"
    ++ suggestionLines report.suggestions

end Diagnostic

end LetLang
