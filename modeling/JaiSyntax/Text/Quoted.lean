import JaiSyntax.Character.Printable
/-!
Quoted text for listings. A quote, a backslash and what has no shape of its own are escaped, so that
each character of the text can be told from its neighbours.
-/

set_option autoImplicit false

namespace JaiSyntax

/-- A number in lower-case hexadecimal digits, without leading zeros. -/
def hexadecimal (value : Nat) : List Char := Nat.toDigits 16 value

def quotedCharacter (character : Char) : List Char :=
  match character with
  | '\x00' => ['\\', '0']
  | '\t' => ['\\', 't']
  | '\r' => ['\\', 'r']
  | '\n' => ['\\', 'n']
  | '"' => ['\\', '"']
  | '\\' => ['\\', '\\']
  | other =>
      if isPrintable other then [other]
      else ['\\', 'u', '\x7b'] ++ hexadecimal other.toNat ++ ['\x7d']

def quoted (text : List Char) : List Char := '"' :: (text.flatMap quotedCharacter ++ ['"'])

end JaiSyntax
