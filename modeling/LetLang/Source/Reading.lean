/-!
# The text of a source file

The text of a source file is its bytes as UTF-8, with every sort of line end turned into a line
feed. What a path names need not be a file, and a file need not be UTF-8 (`Entry.source`).
-/

set_option autoImplicit false

namespace LetLang

/-- What a path names. -/
inductive Entry
  | missing
  | directory
  | file (content : ByteArray)

/-- Why there is no source where a path points. -/
inductive ReadFault
  /-- The path names nothing. -/
  | missing
  /-- The path names a directory. -/
  | directory
  /-- The file is not UTF-8. -/
  | undecodable
  deriving DecidableEq

/-- A text in which a carriage return, alone or before a line feed, is a line feed. -/
def unifyLineEnds : List Char → List Char
  | [] => []
  | '\r' :: '\n' :: rest => '\n' :: unifyLineEnds rest
  | '\r' :: rest => '\n' :: unifyLineEnds rest
  | c :: rest => c :: unifyLineEnds rest

/-- The text of a file, if its bytes are UTF-8. -/
def decodeSource? (content : ByteArray) : Option String :=
  (String.fromUTF8? content).map fun text => String.ofList (unifyLineEnds text.toList)

/-- The text of the source that a path names. -/
def Entry.source : Entry → Except ReadFault String
  | missing => .error .missing
  | directory => .error .directory
  | file content =>
    match decodeSource? content with
    | some text => .ok text
    | none => .error .undecodable

end LetLang
