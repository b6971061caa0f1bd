import JaiSyntax.Character.Ranges
/-!
White space: the Unicode property White_Space.
-/

set_option autoImplicit false

namespace JaiSyntax

def whiteSpaceRanges : List (Nat × Nat) :=
  [(0x9, 0xD), (0x20, 0x20), (0x85, 0x85), (0xA0, 0xA0), (0x1680, 0x1680), (0x2000, 0x200A),
   (0x2028, 0x2029), (0x202F, 0x202F), (0x205F, 0x205F), (0x3000, 0x3000)]

def isWhiteSpace (character : Char) : Bool := inRanges whiteSpaceRanges character.toNat

end JaiSyntax
