/-!
# Paths

Paths of files, as they are given on the command line.
-/

set_option autoImplicit false

namespace LetLang.Path

/-- The parts of a path between slashes, without empty parts and those that mean the directory
itself. -/
def parts (path : String) : List String :=
  ((path.toList.splitOn '/').map String.ofList).filter fun part => part != "" && part != "."

/-- The slashes that an absolute path keeps at its start: two if there are exactly two, and
otherwise one. -/
def root (path : String) : String :=
  match path.toList with
  | '/' :: '/' :: '/' :: _ => "/"
  | '/' :: '/' :: _ => "//"
  | '/' :: _ => "/"
  | _ => ""

/-- A path in its simplest form. -/
def simplify (path : String) : String :=
  match parts path with
  | [] => if root path = "" then "." else root path
  | parts => root path ++ "/".intercalate parts

/-- The directories that a path leads through, the outermost first. -/
def ancestors (path : String) : List String :=
  (List.range ((parts path).length - 1)).map fun count =>
    root path ++ "/".intercalate ((parts path).take (count + 1))

/-- The last part of a path. -/
def fileName (path : String) : String := ((parts path).getLast?).getD ""

/-- The last part of a path without its ending: what stands after its last point, unless the point
is its first or last character. -/
def stem (path : String) : String :=
  let name := (fileName path).toList
  let ending := name.reverse.takeWhile (· != '.')
  let before := name.length - ending.length - 1
  if ending.length < name.length && 0 < before && 0 < ending.length
  then String.ofList (name.take before) else String.ofList name

end LetLang.Path
