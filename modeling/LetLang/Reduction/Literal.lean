import LetLang.Number.Reading
import LetLang.Reduction.Error

/-!
# The number a literal stands for

What number a literal stands for. The type that the context expects decides: under `float` every
literal is a double, under `int` it has to be an integer, and otherwise a literal with a point is a
double and one without is an integer. Integers have to lie in the 64-bit range, which is checked by
length before the digits are converted.
-/

set_option autoImplicit false

namespace LetLang

/-- The data type that a context expects, if it expects one. -/
def expectedData? : Option Tree → Option DataType
  | some (.basicType name) => some name
  | _ => none

/-- The number of decimal digits of the greatest 64-bit integer. -/
def int64Digits : Nat := 19

/-- The integer that digits stand for. -/
def resolveInteger (lexeme : String) (digits : List Nat) : Except ReductionFailure Number :=
  if int64Digits < (lexeme.toList.dropWhile (· == '0')).length then
    .error (.semantic (.invalidLiteral lexeme "int" .outOfRange))
  else if digitLimit < digits.length then .error (.tooManyDigits digits.length)
  else if int64Max < ofDigits digits then
    .error (.semantic (.invalidLiteral lexeme "int" .outOfRange))
  else .ok (.int (ofDigits digits))

/-- The number that a literal stands for where the given type is expected. -/
def resolveLiteral (lexeme : String) (expected? : Option Tree) : Except ReductionFailure Number :=
  let data? := expectedData? expected?
  let typeName := (data?.map DataType.name).getD "number"
  match plainNumber? lexeme.toList with
  | none => .error (.semantic (.invalidLiteral lexeme typeName .notDecimal))
  | some number =>
    if data? = some .float then .ok (.float number.toBinary64)
    else
      match number.fraction? with
      | none => resolveInteger lexeme number.whole
      | some _ =>
        if data? = some .int then
          .error (.semantic (.invalidLiteral lexeme typeName .fractional))
        else .ok (.float number.toBinary64)

/-- The number that a literal stands for, if it has a text. -/
def resolveLexeme (lexeme : Lexeme) (expected? : Option Tree) : Except ReductionFailure Number :=
  match lexeme with
  | some text => resolveLiteral text expected?
  | none => .error .noLexeme

end LetLang
