import LetLang.Number.Binary64
import LetLang.Text.Padding

/-!
# The shortest decimal text of a double

The decimal text of a double: the fewest digits that read back as the same number, and of those the
ones nearest to it (`Binary64.shortest`), laid out positionally or with an exponent
(`Binary64.toText`).

A positive double `mantissa * 2 ^ place` is the nearest double to every real number strictly between
the midpoints to its two neighbours, and to the midpoints themselves when its mantissa is even. For
one digit, two digits and so on, the two multiples of a power of ten around the double are tested
against that interval; at seventeen digits one of them lies in it.
-/

set_option autoImplicit false

namespace LetLang.Binary64

/-- The integer `m` and the exponent `q` of a positive finite double `m * 2 ^ q`. -/
def decode (x : Binary64) : Nat × Int :=
  let exponent := (x.magnitude >>> 52).toNat
  let fraction := (x.magnitude &&& 0xfffffffffffff).toNat
  if exponent = 0 then (fraction, -1074) else (hiddenBit + fraction, (exponent : Int) - 1075)

/-- The numbers that round to a double, over a common denominator: the double itself is
`value / denominator`, the ends of the interval are `low / denominator` and `high / denominator`,
and `closed` says whether they belong to it. -/
structure Interval where
  value : Nat
  low : Nat
  high : Nat
  denominator : Nat
  closed : Bool

/-- The interval of a positive finite double. Below a power of two the doubles lie twice as dense,
so the lower end is then half as far away. -/
def interval (x : Binary64) : Interval :=
  let (mantissa, place) := x.decode
  let unit := Nat.pow 2 place.toNat
  let value := 4 * mantissa * unit
  let below := if mantissa = hiddenBit && -1074 < place then unit else 2 * unit
  { value := value, low := value - below, high := value + 2 * unit
    denominator := 4 * Nat.pow 2 (-place).toNat, closed := mantissa % 2 == 0 }

/-- A number `digits * 10 ^ exponent`. -/
structure Decimal where
  digits : Nat
  exponent : Int
  deriving DecidableEq, Inhabited

/-- A decimal and a quotient `numerator / denominator` brought to one denominator. -/
def Decimal.compared (decimal : Decimal) (numerator denominator : Nat) : Nat × Nat :=
  if 0 ≤ decimal.exponent then
    (decimal.digits * Nat.pow 10 decimal.exponent.toNat * denominator, numerator)
  else (decimal.digits * denominator, numerator * Nat.pow 10 (-decimal.exponent).toNat)

/-- Whether a decimal lies in an interval. -/
def Interval.holds (range : Interval) (decimal : Decimal) : Bool :=
  let low := decimal.compared range.low range.denominator
  let high := decimal.compared range.high range.denominator
  if range.closed then low.2 ≤ low.1 && high.1 ≤ high.2 else low.2 < low.1 && high.1 < high.2

/-- The distance of a decimal from the double of an interval, up to a factor that depends only on
the exponent of the decimal. -/
def Interval.distance (range : Interval) (decimal : Decimal) : Nat :=
  let sides := decimal.compared range.value range.denominator
  (sides.1 - sides.2) + (sides.2 - sides.1)

/-- The decimal exponent of the first digit of a positive quotient, which is not to lie below
`10 ^ (-330)`. -/
def leadingExponent (numerator denominator : Nat) : Int :=
  ((Nat.toDigits 10 (numerator * Nat.pow 10 330 / denominator)).length : Int) - 331

/-- The multiple of `10 ^ exponent` just below the double of an interval, or at it. -/
def Interval.below (range : Interval) (exponent : Int) : Decimal :=
  let digits :=
    if 0 ≤ exponent then range.value / (range.denominator * Nat.pow 10 exponent.toNat)
    else range.value * Nat.pow 10 (-exponent).toNat / range.denominator
  ⟨digits, exponent⟩

/-- The nearer of two neighbouring decimals to the double of an interval; when both are equally far,
the one whose last digit is even. -/
def Interval.nearer (range : Interval) (lower upper : Decimal) : Decimal :=
  let toLower := range.distance lower
  let toUpper := range.distance upper
  if toUpper < toLower || (toUpper == toLower && upper.digits % 2 == 0) then upper else lower

/-- The decimal of the given number of digits that reads back as the double, if there is one; of
two, the nearer. -/
def Interval.candidate? (range : Interval) (leading : Int) (count : Nat) : Option Decimal :=
  let lower := range.below (leading + 1 - count)
  let upper : Decimal := ⟨lower.digits + 1, lower.exponent⟩
  match range.holds lower, range.holds upper with
  | true, true => some (range.nearer lower upper)
  | true, false => some lower
  | false, true => some upper
  | false, false => none

/-- The first candidate over increasing numbers of digits. -/
def Interval.firstCandidate (range : Interval) (leading : Int) : Nat → Nat → Decimal
  | 0, count => range.below (leading + 1 - count)
  | tries + 1, count =>
    match range.candidate? leading count with
    | some decimal => decimal
    | none => range.firstCandidate leading tries (count + 1)

/-- The shortest decimal that reads back as a positive finite double. -/
def shortest (x : Binary64) : Decimal :=
  let range := x.interval
  range.firstCandidate (leadingExponent range.value range.denominator) 17 1

/-! ### Layout -/

/-- How the digits of a number are laid out: the decimal exponents (of the first digit) from
`leastPositional` up to but not including `endPositional` are written without an exponent, and an
exponent has a sign and at least `exponentWidth` digits. -/
structure Layout where
  leastPositional : Int
  endPositional : Int
  exponentWidth : Nat

/-- Numbers are written positionally from `0.0001` up to below `10 ^ 16`, and exponents have at
least two digits. -/
def layout : Layout := ⟨-4, 16, 2⟩

/-- Digits without the zeros at their end. -/
def dropTrailingZeros (digits : List Char) : List Char :=
  (digits.reverse.dropWhile (· == '0')).reverse

/-- Digits whose first has the decimal exponent `leading`, without an exponent and always with a
point. -/
def positionalText (digits : List Char) (leading : Int) : List Char :=
  if leading < 0 then
    '0' :: '.' :: List.replicate (-leading - 1).toNat '0' ++ digits
  else
    let whole := leading.toNat + 1
    if digits.length ≤ whole then
      digits ++ List.replicate (whole - digits.length) '0' ++ ['.', '0']
    else digits.take whole ++ '.' :: digits.drop whole

/-- Digits whose first has the decimal exponent `leading`, with an exponent. -/
def exponentText (width : Nat) (digits : List Char) (leading : Int) : List Char :=
  let fraction := if digits.length ≤ 1 then [] else '.' :: digits.drop 1
  let sign := if leading < 0 then '-' else '+'
  digits.take 1 ++ fraction ++ 'e' :: sign ::
    (Text.padLeft '0' width (toString leading.natAbs)).toList

/-- A positive decimal in a given layout. -/
def Decimal.toText (format : Layout) (decimal : Decimal) : String :=
  let written := Nat.toDigits 10 decimal.digits
  let leading := decimal.exponent + (written.length : Int) - 1
  let digits := dropTrailingZeros written
  String.ofList <|
    if format.leastPositional ≤ leading && leading < format.endPositional
    then positionalText digits leading
    else exponentText format.exponentWidth digits leading

/-- The text of a double. A nan is shown without its sign. -/
def toText (x : Binary64) : String :=
  let sign := if x.isNegative then "-" else ""
  if x.isNaN then "nan"
  else if x.isInfinite then sign ++ "inf"
  else if x.isZero then sign ++ "0.0"
  else sign ++ x.shortest.toText layout

end LetLang.Binary64
