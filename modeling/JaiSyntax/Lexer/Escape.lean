import JaiSyntax.Character.Scalar
import JaiSyntax.Number.Numeral
import JaiSyntax.Text.StringPiece
/-!
The character that an escape sequence stands for.
-/

set_option autoImplicit false

namespace JaiSyntax

/-- The character after a backslash read as itself, or as the control it abbreviates. An escaped line
break is a line feed. -/
def controlCharacter : Char → Char
  | 'n' | '\r' => '\n'
  | 't' => '\t'
  | 'r' => '\r'
  | 'a' => '\x07'
  | 'b' => '\x08'
  | 'f' => '\x0c'
  | 'v' => '\x0b'
  | 'e' => '\x1b'
  | character => character

/-- The character that digits in a base stand for, if their value is a code point. -/
def numeralScalar? (radix : Nat) (digits : List Char) : Option Char :=
  (word? radix digits).bind scalar?

/-- The character an escape sequence stands for. The text starts at the backslash. -/
def escapedCharacter? (form : EscapeForm) (text : List Char) : Option Char :=
  match form with
  | .single => (text.drop 1).head?.map controlCharacter
  | .octal => numeralScalar? 8 (text.drop 1)
  | .hex | .unicode4 | .unicode8 => numeralScalar? 16 (text.drop 2)
  | .unicodeBraced => numeralScalar? 16 ((text.drop 3).dropLast)
  | .invalid => none

def replacementCharacter : Char := '\uFFFD'

end JaiSyntax
