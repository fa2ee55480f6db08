/-!
# Double-precision numbers

Double-precision numbers, kept as their 64 bits so that two of them are equal exactly when they are
the same datum, a signed zero or a nan included. Sum, difference and product are those of `Float`;
negation flips the sign bit; division by zero is spelled out (`Binary64.div`). Comparison in the
numeric sense, where the two zeros agree and a nan differs from itself, is `Binary64.same`.

`Binary64.ofRatio` rounds a quotient of natural numbers to the nearest double, a tie to the even
one, in exact arithmetic.
-/

set_option autoImplicit false

namespace LetLang

/-- A double-precision number, given by its bits. -/
structure Binary64 where
  bits : UInt64
  deriving DecidableEq, Inhabited

namespace Binary64

/-- The bit that a normal number has above its stored fraction: `2 ^ 52`, the least mantissa of a
normal number. -/
def hiddenBit : Nat := 0x10000000000000

/-- The sign bit. -/
def signBit : UInt64 := 0x8000000000000000

/-- The bits of positive infinity, above which only nans lie. -/
def infinityBits : UInt64 := 0x7ff0000000000000

/-- The nan that an undefined division yields. -/
def nan : Binary64 := ⟨0x7ff8000000000000⟩

/-- Positive infinity. -/
def infinity : Binary64 := ⟨infinityBits⟩

/-- The bits without the sign. -/
def magnitude (x : Binary64) : UInt64 := x.bits &&& 0x7fffffffffffffff

/-- Whether the sign bit is set. -/
def isNegative (x : Binary64) : Bool := x.bits &&& signBit != 0

/-- Whether a datum is no number. -/
def isNaN (x : Binary64) : Bool := infinityBits < x.magnitude

/-- Whether a datum is an infinity, of either sign. -/
def isInfinite (x : Binary64) : Bool := x.magnitude == infinityBits

/-- Whether a datum is a zero, of either sign. -/
def isZero (x : Binary64) : Bool := x.magnitude == 0

/-- Equality of numbers: the zeros are equal, and a nan differs from everything. -/
def same (x y : Binary64) : Bool :=
  !x.isNaN && !y.isNaN && (x.bits == y.bits || (x.isZero && y.isZero))

/-- The datum with the other sign. -/
def neg (x : Binary64) : Binary64 := ⟨x.bits ^^^ signBit⟩

/-- A datum with the sign bit set or clear. -/
def withSign (negative : Bool) (x : Binary64) : Binary64 := if negative then x.neg else x

/-- The datum as a machine number. -/
def toFloat (x : Binary64) : Float := Float.ofBits x.bits

/-- The datum of a machine number. -/
def ofFloat (x : Float) : Binary64 := ⟨x.toBits⟩

/-- The sum, rounded to nearest even. -/
def add (x y : Binary64) : Binary64 := ofFloat (x.toFloat + y.toFloat)

/-- The difference, rounded to nearest even. -/
def sub (x y : Binary64) : Binary64 := ofFloat (x.toFloat - y.toFloat)

/-- The product, rounded to nearest even. -/
def mul (x y : Binary64) : Binary64 := ofFloat (x.toFloat * y.toFloat)

/-- The quotient, rounded to nearest even. Division by a zero gives a nan when the dividend is a
zero or a nan, and otherwise the infinity whose sign is the product of the two signs. -/
def div (x y : Binary64) : Binary64 :=
  if y.isZero then
    if x.isZero || x.isNaN then nan else infinity.withSign (x.isNegative != y.isNegative)
  else ofFloat (x.toFloat / y.toFloat)

/-! ### Rounding a quotient -/

/-- The quotient of two natural numbers, rounded to nearest, a tie to even. -/
def roundQuotient (numerator denominator : Nat) : Nat :=
  let floor := numerator / denominator
  let twice := 2 * (numerator % denominator)
  if denominator < twice || (twice == denominator && floor % 2 == 1) then floor + 1 else floor

/-- The quotient `numerator / (denominator * 2 ^ exponent)`, as a numerator and a denominator. -/
def scaled (numerator denominator : Nat) (exponent : Int) : Nat × Nat :=
  if 0 ≤ exponent then (numerator, denominator * Nat.pow 2 exponent.toNat)
  else (numerator * Nat.pow 2 (-exponent).toNat, denominator)

/-- The exponent of the last place of the double nearest to a positive quotient: such that the
quotient in units of that place lies below `2 ^ 53`, and not below `2 ^ 52` unless the place is
already the last one of the subnormal numbers. -/
def lastPlace (numerator denominator : Nat) : Int :=
  let estimate := max (-1074) ((numerator.log2 : Int) - denominator.log2 - 53)
  let units := scaled numerator denominator estimate
  if 2 * hiddenBit ≤ units.1 / units.2 then estimate + 1 else estimate

/-- The double nearest to a quotient of natural numbers, a tie to the even one; a quotient too large
for a double gives infinity. With `place` the exponent of the last place and `mantissa` the quotient
in its units, the bits are `(place + 1074) * 2 ^ 52 + mantissa`, for normal and subnormal numbers
alike, and a mantissa that rounds up to `2 ^ 53` carries into the exponent. -/
def ofRatio (numerator denominator : Nat) : Binary64 :=
  if numerator = 0 then ⟨0⟩
  else
    let place := lastPlace numerator denominator
    let units := scaled numerator denominator place
    let bits := (place + 1074).toNat * hiddenBit + roundQuotient units.1 units.2
    if infinityBits.toNat ≤ bits then infinity else ⟨bits.toUInt64⟩

/-- The double nearest to `digits * 10 ^ exponent`. Since `digits` lies between `10 ^ atLeast` and
`10 ^ atMost`, a value far beyond the range of the doubles is answered without computing it. -/
def ofDecimal (digits : Nat) (exponent : Int) : Binary64 :=
  let atLeast : Int := (digits.log2 * 3 / 10 : Nat)
  let atMost : Int := (digits.log2 * 31 / 100 + 1 : Nat)
  if digits = 0 then ⟨0⟩
  else if 320 < atLeast + exponent then infinity
  else if atMost + exponent < -340 then ⟨0⟩
  else if 0 ≤ exponent then ofRatio (digits * Nat.pow 10 exponent.toNat) 1
  else ofRatio digits (Nat.pow 10 (-exponent).toNat)

end Binary64

end LetLang
