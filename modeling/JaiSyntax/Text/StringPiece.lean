import JaiSyntax.Text.Unit
/-!
The pieces of a string body: runs of plain content, line breaks and escape sequences, up to the
closing quote. Each piece is given with the number of units it covers.
-/

set_option autoImplicit false

namespace JaiSyntax

open SourceUnit

variable {α : Type} [SourceUnit α]

inductive EscapeForm where
  /-- A backslash and one character, or a backslash and a line break. -/
  | single
  /-- One to three octal digits. -/
  | octal
  /-- Two hexadecimal digits after `\x`. -/
  | hex
  /-- Four hexadecimal digits after `\u`. -/
  | unicode4
  /-- Any number of hexadecimal digits in braces after `\u`. -/
  | unicodeBraced
  /-- Eight hexadecimal digits after `\U`. -/
  | unicode8
  /-- A backslash with none of these after it. -/
  | invalid
  deriving DecidableEq

namespace EscapeForm

def name : EscapeForm → String
  | .single => "Single"
  | .octal => "Octal"
  | .hex => "Hex"
  | .unicode4 => "Unicode4"
  | .unicodeBraced => "UnicodeBraced"
  | .unicode8 => "Unicode8"
  | .invalid => "Invalid"

end EscapeForm

inductive StringPiece where
  /-- A longest run without quote, backslash and line feed. -/
  | content
  /-- A line feed; a carriage return before it belongs to the content. -/
  | lineBreak
  | escape (form : EscapeForm)
  /-- The closing quote. -/
  | close
  /-- The text ends before the closing quote. -/
  | endOfInput
  deriving DecidableEq

def isPlainContent (unit : α) : Bool := !(is '"' unit || is '\\' unit || is '\n' unit)

/-- The number of hexadecimal digits at the front of a text, counted up to `limit`. -/
def hexRunLength (limit : Nat) (units : List α) : Nat := runLength isHexDigit (units.take limit)

def fixedHexEscape (form : EscapeForm) (digits : Nat) (units : List α) : EscapeForm × Nat :=
  let read := hexRunLength digits units
  (if read == digits then form else .invalid, read + 1)

def bracedEscape (units : List α) : EscapeForm × Nat :=
  let read := runLength isHexDigit (units.drop 1)
  if 0 < read && nextIs '\x7d' (units.drop (read + 1)) then (.unicodeBraced, read + 3)
  else (.invalid, read + 2)

/-- The form of an escape and the number of units after its backslash. An upper-case `\U` without
eight digits is the escape of a single character. -/
def escapeAfterBackslash : List α → EscapeForm × Nat
  | [] => (.invalid, 0)
  | unit :: rest =>
      if is 'x' unit then fixedHexEscape .hex 2 rest
      else if is 'u' unit then
        if nextIs '\x7b' rest then bracedEscape rest else fixedHexEscape .unicode4 4 rest
      else if is 'U' unit then
        if hexRunLength 8 rest == 8 then (.unicode8, 9) else (.single, 1)
      else if isOctalDigit unit then
        (.octal, runLength isOctalDigit ((unit :: rest).take 3))
      else
        (.single, max (lineBreakLength (unit :: rest)) (characterLength (unit :: rest)))

/-- The piece at the front of a string body and the number of units it covers. -/
def stringPiece : List α → StringPiece × Nat
  | [] => (.endOfInput, 0)
  | unit :: rest =>
      if is '"' unit then (.close, 1)
      else if is '\\' unit then
        let (form, length) := escapeAfterBackslash rest
        (.escape form, length + 1)
      else if is '\n' unit then (.lineBreak, 1)
      else (.content, runLength isPlainContent (unit :: rest))

end JaiSyntax
