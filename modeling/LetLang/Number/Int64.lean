/-!
# Signed 64-bit integers

Signed 64-bit integers as a range of the unbounded ones. Arithmetic is done without bound and the
result is brought back into the range by `wrapInt64`; division drops the fraction (`Int.tdiv`).
-/

set_option autoImplicit false

namespace LetLang

/-- The least signed 64-bit integer. -/
def int64Min : Int := -0x8000000000000000

/-- The greatest signed 64-bit integer. -/
def int64Max : Int := 0x7fffffffffffffff

/-- The number of signed 64-bit integers. -/
def int64Count : Int := 0x10000000000000000

/-- The signed 64-bit integer that differs from a given integer by a multiple of `2 ^ 64`. -/
def wrapInt64 (value : Int) : Int := (value - int64Min) % int64Count + int64Min

/-- Whether an integer is a signed 64-bit one. -/
def fitsInt64 (value : Int) : Bool := int64Min ≤ value && value ≤ int64Max

/-- Integer division towards zero, without a result for the divisor zero. -/
def truncatedQuotient? (dividend divisor : Int) : Option Int :=
  if divisor = 0 then none else some (dividend.tdiv divisor)

end LetLang
