/-!
Characters by code point.
-/

set_option autoImplicit false

namespace JaiSyntax

def scalar? (code : Nat) : Option Char :=
  if code.isValidChar then some (Char.ofNat code) else none

theorem scalar?_eq_some_iff {code : Nat} {character : Char} :
    scalar? code = some character ↔ character.toNat = code := by
  unfold scalar?
  constructor
  · intro found
    split at found
    · next valid =>
        cases found
        rw [Char.ofNat, dif_pos valid]
        rfl
    · cases found
  · rintro rfl
    have valid : character.toNat.isValidChar := character.valid
    rw [if_pos valid, Char.ofNat_toNat]

end JaiSyntax
