import LetLang.Command.Run

/-!
# The program

The program: it looks up what the paths on the command line name, runs the command line on that, and
prints and writes what the report says.
-/

set_option autoImplicit false

namespace LetLang

/-- What a path names in the file system. A directory can be opened but not read. -/
def lookUp (path : String) : IO Entry := do
  try
    return .file (← IO.FS.readBinFile path)
  catch _ =>
    try
      let _ ← IO.FS.Handle.mk path .read
      return .directory
    catch _ => return .missing

/-- The texts in an argument that may be paths: the argument itself and the value joined to it. -/
def candidateTexts (argument : String) : List String :=
  [argument, String.ofList (argument.toList.drop 2)] ++ (splitValue argument).2.toList

/-- The paths that may have to be looked up for an argument. -/
def candidatePaths (argument : String) : List String :=
  (candidateTexts argument).flatMap fun path =>
    path :: Path.simplify path :: Path.ancestors path

/-- What is said about a failure that no diagnostic covers. -/
def Uncaught.message : Uncaught → String
  | undecodable => "the source is not UTF-8"
  | parsing _ => "the tokens cannot be parsed"
  | reduction _ => "a number literal cannot be converted"
  | emission _ => "a value is missing"
  | unnamed => "a variable has no name"
  | unwritable .noDirectory path => "no such directory: " ++ path
  | unwritable .notDirectory path => "not a directory: " ++ path
  | unwritable .directory path => "is a directory: " ++ path

end LetLang

open LetLang in
/-- Runs the program. -/
def main (arguments : List String) : IO UInt32 := do
  let paths := arguments.flatMap candidatePaths
  let entries ← paths.mapM fun path => do return (path, ← lookUp path)
  let look (path : String) : Entry := (entries.lookup path).getD .missing
  let report := runCommandLine look (← (← IO.getStderr).isTty) arguments
  IO.print report.output
  for (path, text) in report.written do
    IO.FS.writeFile path text
  IO.eprint report.errors
  if let some failure := report.uncaught? then
    IO.eprintln failure.message
  return report.exit.toUInt32
