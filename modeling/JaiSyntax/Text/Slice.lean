import JaiSyntax.Span
/-!
Texts measured in UTF-8 bytes. A slice exists only where both offsets fall on characters.
-/

set_option autoImplicit false

namespace JaiSyntax

def utf8Length : List Char → Nat
  | [] => 0
  | character :: rest => character.utf8Size + utf8Length rest

/-- The text after its first `count` bytes, if they are whole characters. -/
def dropBytes? : Nat → List Char → Option (List Char)
  | 0, text => some text
  | _ + 1, [] => none
  | count + 1, character :: rest =>
      if character.utf8Size ≤ count + 1 then dropBytes? (count + 1 - character.utf8Size) rest
      else none

/-- The first `count` bytes of a text, if they are whole characters. -/
def takeBytes? : Nat → List Char → Option (List Char)
  | 0, _ => some []
  | _ + 1, [] => none
  | count + 1, character :: rest =>
      if character.utf8Size ≤ count + 1 then
        (takeBytes? (count + 1 - character.utf8Size) rest).map (character :: ·)
      else none

/-- The text a span covers; nothing when the span does not fall on characters of the source. -/
def Span.text (span : Span) (source : List Char) : List Char :=
  if span.start ≤ span.stop then
    ((dropBytes? span.start source).bind (takeBytes? span.length)).getD []
  else []

@[simp] theorem utf8Length_nil : utf8Length [] = 0 := rfl

@[simp] theorem utf8Length_cons (character : Char) (rest : List Char) :
    utf8Length (character :: rest) = character.utf8Size + utf8Length rest := rfl

theorem utf8Length_append (left right : List Char) :
    utf8Length (left ++ right) = utf8Length left + utf8Length right := by
  induction left with
  | nil => simp
  | cons character rest ih => simp [ih, Nat.add_assoc]

end JaiSyntax
