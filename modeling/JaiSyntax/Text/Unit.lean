/-!
Units of source text. The scanners for comments, strings and heredocs only ask how a unit compares
with ASCII, so they are written once, for characters and for the bytes of their UTF-8 form alike. A
byte cursor may stand inside a character; its scanners then see the remaining bytes as they are.
-/

set_option autoImplicit false

namespace JaiSyntax

/-- A unit of text: a number that agrees with ASCII below 128, and how many units make up the
character that starts with it. -/
class SourceUnit (α : Type) where
  code : α → Nat
  characterUnits : α → Nat

instance : SourceUnit Char where
  code unit := unit.toNat
  characterUnits _ := 1

/-- The length of a UTF-8 character from its first byte; any other byte stands alone. -/
def utf8Width (byte : UInt8) : Nat :=
  if 0xC0 ≤ byte && byte ≤ 0xDF then 2
  else if 0xE0 ≤ byte && byte ≤ 0xEF then 3
  else if 0xF0 ≤ byte && byte ≤ 0xF7 then 4
  else 1

instance : SourceUnit UInt8 where
  code unit := unit.toNat
  characterUnits := utf8Width

namespace SourceUnit

variable {α : Type} [SourceUnit α]

def is (character : Char) (unit : α) : Bool := code unit == character.toNat

/-- Space and tab. -/
def isBlank (unit : α) : Bool := is ' ' unit || is '\t' unit

/-- Space, tab, line feed, form feed and carriage return. -/
def isSpace (unit : α) : Bool :=
  isBlank unit || is '\n' unit || is '\x0c' unit || is '\r' unit

def isDigit (unit : α) : Bool := decide (48 ≤ code unit) && decide (code unit ≤ 57)

def isOctalDigit (unit : α) : Bool := decide (48 ≤ code unit) && decide (code unit ≤ 55)

def isUpper (unit : α) : Bool := decide (65 ≤ code unit) && decide (code unit ≤ 90)

def isLower (unit : α) : Bool := decide (97 ≤ code unit) && decide (code unit ≤ 122)

def isHexDigit (unit : α) : Bool :=
  isDigit unit || (decide (65 ≤ code unit) && decide (code unit ≤ 70))
    || (decide (97 ≤ code unit) && decide (code unit ≤ 102))

/-- Whether a unit may go on a word: an ASCII letter or digit, an underscore, or anything that is
not ASCII. -/
def continuesWord (unit : α) : Bool :=
  is '_' unit || isDigit unit || isUpper unit || isLower unit || decide (128 ≤ code unit)

def nextIs (character : Char) : List α → Bool
  | [] => false
  | unit :: _ => is character unit

def runLength (test : α → Bool) (units : List α) : Nat := (units.takeWhile test).length

def characterLength : List α → Nat
  | [] => 0
  | unit :: rest => (unit :: rest).take (characterUnits unit) |>.length

/-- The number of units in the line break at the front of a text: a line feed, or a carriage return
with one. -/
def lineBreakLength : List α → Nat
  | [] => 0
  | unit :: rest =>
      if is '\n' unit then 1
      else if is '\r' unit && nextIs '\n' rest then 2
      else 0

end SourceUnit

end JaiSyntax
