/-!
Sets of characters given by a table of ranges.
-/

set_option autoImplicit false

namespace JaiSyntax

/-- Whether a code point lies in one of the ranges of a table, ends included. -/
def inRanges (table : List (Nat × Nat)) (code : Nat) : Bool :=
  table.any (fun range => decide (range.1 ≤ code) && decide (code ≤ range.2))

end JaiSyntax
