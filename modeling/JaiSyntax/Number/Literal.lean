import JaiSyntax.Number.Numeral
import JaiSyntax.Number.Binary64
/-!
The values of number literals, from their written form.
-/

set_option autoImplicit false

namespace JaiSyntax

/-- The two sides of the first character that satisfies a test, without it; the second is absent when
no character does. -/
def splitAtFirst (test : Char → Bool) (text : List Char) : List Char × Option (List Char) :=
  let front := text.takeWhile (fun character => !test character)
  match text.drop front.length with
  | [] => (front, none)
  | _ :: back => (front, some back)

/-- An exponent: whether it is negative, and its digits. -/
def splitSign : List Char → Bool × List Char
  | '-' :: digits => (true, digits)
  | '+' :: digits => (false, digits)
  | digits => (false, digits)

/-- The pattern of a decimal float such as `1_000.25e-3`, correctly rounded, if the text is one. -/
def decimalFloat? (text : List Char) : Option Nat := do
  let (significand, exponent?) :=
    splitAtFirst (fun character => character == 'e' || character == 'E') (withoutSeparators text)
  let (whole, fraction?) := splitAtFirst (fun character => character == '.') significand
  let fraction := fraction?.getD []
  let value ← numeral? 10 (whole ++ fraction)
  let (isNegative, digits) := splitSign (exponent?.getD [])
  let magnitude ← numeral? 10 digits
  let exponent : Int := if isNegative then -(magnitude : Int) else magnitude
  pure (Binary64.ofDecimal value (whole.length + fraction.length) (exponent - fraction.length))

/-- Put hexadecimal digits after a value that rounds to 53 bits at each step; a value of 1024 bits is
infinite. -/
def hexSignificand (value : Option Nat) : List Char → Option Nat
  | [] => value
  | character :: rest =>
      match digitValue? 16 character with
      | none => hexSignificand value rest
      | some digit =>
          let next := value.map (fun finite => Binary64.roundInteger (16 * finite + digit))
          hexSignificand (next.filter (fun finite => decide (finite < Binary64.twoTo 1024))) rest

/-- The pattern of a hexadecimal float such as `1.8p3`, given without its prefix. There is none when
the exponent does not fit 64 bits. -/
def hexFloat? (text : List Char) : Option Nat := do
  let (significand, exponent?) :=
    splitAtFirst (fun character => character == 'p' || character == 'P') text
  let (whole, fraction?) := splitAtFirst (fun character => character == '.') significand
  let fraction := fraction?.getD []
  let fractionDigits := min (withoutSeparators fraction).length 4096
  let (isNegative, digits) := splitSign (exponent?.getD [])
  let magnitude ← word? 10 digits
  let bounded := min magnitude 65536
  let exponent : Int := if isNegative then -(bounded : Int) else bounded
  let power := exponent - 4 * (fractionDigits : Int)
  match hexSignificand (some 0) (whole ++ fraction) with
  | some value => pure (Binary64.scale value power)
  | none => pure (Binary64.scaleInfinity power)

/-- The pattern that hexadecimal digits spell: up to eight digits are a binary32 pattern and up to
sixteen a binary64 pattern. -/
def floatBits? (digits : List Char) : Option Nat := do
  let count := (withoutSeparators digits).length
  let bits ← word? 16 digits
  if count ≤ 8 then pure (Binary64.ofBinary32 bits)
  else if count ≤ 16 then pure bits
  else none

end JaiSyntax
