import JaiSyntax.Text.Unit
/-!
The extent of heredocs. The delimiter is the first word on the opening line. The body runs to the
first later line that begins, after blanks, with the delimiter as a whole word.
-/

set_option autoImplicit false

namespace JaiSyntax

open SourceUnit

variable {α : Type} [SourceUnit α]

/-- The number of blanks before the delimiter and the length of the delimiter, which is zero when the
line or the text ends first. -/
def heredocDelimiter (units : List α) : Nat × Nat :=
  let blanks := runLength isBlank units
  (blanks, runLength (fun unit => !isSpace unit) (units.drop blanks))

/-- If a line closes the body, the number of blanks before its delimiter. -/
def closingIndent? [BEq α] (delimiter line : List α) : Option Nat :=
  let blanks := runLength isBlank line
  let text := line.drop blanks
  if delimiter.isPrefixOf text then
    match text.drop delimiter.length with
    | [] => some blanks
    | next :: _ => if continuesWord next then none else some blanks
  else none

/-- Read heredoc text after `covered` units. The result is whether a line closes the body, and how
many units lie before its delimiter, or before the end of the text. -/
def heredocBodyFrom [BEq α] (delimiter : List α) (covered : Nat) : List α → Bool × Nat
  | [] => (false, covered)
  | unit :: rest =>
      if is '\n' unit then
        match closingIndent? delimiter rest with
        | some blanks => (true, covered + 1 + blanks)
        | none => heredocBodyFrom delimiter (covered + 1) rest
      else heredocBodyFrom delimiter (covered + 1) rest

def heredocBody [BEq α] (delimiter units : List α) : Bool × Nat :=
  heredocBodyFrom delimiter 0 units

end JaiSyntax
