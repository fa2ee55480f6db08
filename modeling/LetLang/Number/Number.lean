import LetLang.Number.Int64
import LetLang.Number.Shortest

/-!
# Numbers

The numbers that a program computes with: integers and doubles. The two sorts do not mix.
-/

set_option autoImplicit false

namespace LetLang

/-- A number of one of the two sorts. -/
inductive Number
  | int (value : Int)
  | float (value : Binary64)
  deriving DecidableEq

namespace Number

/-- The name of the sort of a number. -/
def sortName : Number → String
  | int _ => "int"
  | float _ => "float"

/-- A number as it is shown. -/
def text : Number → String
  | int value => toString value
  | float value => value.toText

end Number

end LetLang
