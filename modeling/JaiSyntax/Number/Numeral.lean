/-!
Numerals: digits in a base, with underscores between them that do not count.
-/

set_option autoImplicit false

namespace JaiSyntax

/-- The value of an ASCII digit or letter in a base, if it is a digit there. -/
def digitValue? (radix : Nat) (character : Char) : Option Nat :=
  let value? :=
    if character.isDigit then some (character.toNat - 48)
    else if 'a' ≤ character && character ≤ 'z' then some (character.toNat - 87)
    else if 'A' ≤ character && character ≤ 'Z' then some (character.toNat - 55)
    else none
  value?.filter (fun value => decide (value < radix))

def numeralFrom? (radix value : Nat) : List Char → Option Nat
  | [] => some value
  | character :: rest =>
      if character == '_' then numeralFrom? radix value rest
      else
        match digitValue? radix character with
        | some digit => numeralFrom? radix (value * radix + digit) rest
        | none => none

/-- The value of a numeral; underscores are skipped. -/
def numeral? (radix : Nat) (digits : List Char) : Option Nat := numeralFrom? radix 0 digits

def maxWord : Nat := 18446744073709551615

def word? (radix : Nat) (digits : List Char) : Option Nat :=
  (numeral? radix digits).filter (fun value => decide (value ≤ maxWord))

def withoutSeparators (digits : List Char) : List Char :=
  digits.filter (fun character => character != '_')

end JaiSyntax
