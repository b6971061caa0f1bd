/-!
Binary64 numbers as bit patterns. A number that is not negative is a multiple of the least positive
one, 2^-1074, with at most 53 significant bits; rounding goes to the nearest, and to the even of two.
-/

set_option autoImplicit false

namespace JaiSyntax.Binary64

def twoTo (exponent : Nat) : Nat := Nat.pow 2 exponent

def tenTo (exponent : Nat) : Nat := Nat.pow 10 exponent

/-- The pattern of infinity: every finite pattern is smaller. -/
def infinity : Nat := 0x7FF0000000000000

/-- The pattern of the quiet number that is not one. -/
def notANumber : Nat := 0x7FF8000000000000

/-- The quotient rounded to the nearest integer, and to the even one of two. -/
def divideToEven (dividend divisor : Nat) : Nat :=
  let quotient := dividend / divisor
  let remainder := dividend % divisor
  if divisor < 2 * remainder then quotient + 1
  else if 2 * remainder == divisor && quotient % 2 == 1 then quotient + 1
  else quotient

/-- The number of low bits to drop so that 53 remain. -/
def excessBits (value : Nat) : Nat := value.log2 - 52

def roundInteger (value : Nat) : Nat :=
  divideToEven value (twoTo (excessBits value)) * twoTo (excessBits value)

/-- The pattern of `numerator / denominator` rounded. The significand is counted in units of
2^-1074 times a power of two, and the power is the exponent field; a significand of 53 full bits
that rounds up carries into it. -/
def ofRatio (numerator denominator : Nat) : Nat :=
  let units := numerator * twoTo 1074
  let exponent := excessBits (units / denominator)
  min infinity (exponent * twoTo 52 + divideToEven units (denominator * twoTo exponent))

/-- The pattern of `significand * 10 ^ exponent` rounded, where the significand has at most `digits`
digits. Exponents far outside the range are settled without computing the power. -/
def ofDecimal (significand digits : Nat) (exponent : Int) : Nat :=
  if significand == 0 then 0
  else if 400 < exponent then infinity
  else if exponent + digits < -400 then 0
  else if 0 ≤ exponent then ofRatio (significand * tenTo exponent.toNat) 1
  else ofRatio significand (tenTo (-exponent).toNat)

/-- A number times a power of two. Powers of 1024 and more overflow to infinity, and powers of -1024
and less are its reciprocal, zero. -/
def scale (value : Nat) (power : Int) : Nat :=
  if 1024 ≤ power then (if value == 0 then notANumber else infinity)
  else if power ≤ -1024 then 0
  else if 0 ≤ power then ofRatio (value * twoTo power.toNat) 1
  else ofRatio value (twoTo (-power).toNat)

def scaleInfinity (power : Int) : Nat := if power ≤ -1024 then notANumber else infinity

def ofBinary32 (bits : Nat) : Nat :=
  let sign := bits / twoTo 31 % 2
  let exponent := bits / twoTo 23 % twoTo 8
  let fraction := bits % twoTo 23
  let magnitude :=
    if exponent == 255 then
      if fraction == 0 then infinity else notANumber + fraction % twoTo 22 * twoTo 29
    else if exponent == 0 then ofRatio fraction (twoTo 149)
    else (exponent + 896) * twoTo 52 + fraction * twoTo 29
  sign * twoTo 63 + magnitude

end JaiSyntax.Binary64
