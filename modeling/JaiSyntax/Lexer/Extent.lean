import JaiSyntax.Character.Blank
import JaiSyntax.Character.Identifier
import JaiSyntax.Token.Kind
/-!
The extent of the regular tokens: how many characters at the front of a text belong to white space,
a word, a number or a fixed spelling. Zero means that the text does not start with one.

These are the extents that the automaton generated from the patterns of the tokens finds. It takes
the longest match of a pattern, and more than the patterns say in three places: a backslash behind
white space, an underscore behind the digits of a prefixed number, and a prefix without digits.
-/

set_option autoImplicit false

namespace JaiSyntax

/-! ### White space and words -/

/-- Read white space after `covered` characters. A backslash before a line break is white space. By
the pattern any other backslash is none, but the automaton takes one that stands behind white space
and ends the token there. -/
def whiteSpaceFrom (covered : Nat) : List Char → Nat
  | [] => covered
  | '\\' :: '\n' :: rest => whiteSpaceFrom (covered + 2) rest
  | '\\' :: '\r' :: '\n' :: rest => whiteSpaceFrom (covered + 3) rest
  | character :: rest =>
      if character == '\\' then (if covered == 0 then 0 else covered + 1)
      else if isWhiteSpace character then whiteSpaceFrom (covered + 1) rest
      else covered

def whiteSpaceLength (text : List Char) : Nat := whiteSpaceFrom 0 text

def wordLength : List Char → Nat
  | [] => 0
  | character :: rest => if isWordStart character then (rest.takeWhile isWordPart).length + 1 else 0

/-! ### Numbers -/

def isDecimalDigit (character : Char) : Bool := character.isDigit

def isBinaryDigit (character : Char) : Bool := character == '0' || character == '1'

def isOctalNumeral (character : Char) : Bool := '0' ≤ character && character ≤ '7'

def isHexNumeral (character : Char) : Bool :=
  character.isDigit || ('a' ≤ character && character ≤ 'f') || ('A' ≤ character && character ≤ 'F')

/-- Read digits after `covered` characters. One underscore may stand before a digit. -/
def digitsFrom (digit : Char → Bool) (covered : Nat) : List Char → Nat
  | [] => covered
  | [character] => if digit character then covered + 1 else covered
  | character :: next :: rest =>
      if digit character then digitsFrom digit (covered + 1) (next :: rest)
      else if character == '_' && digit next then digitsFrom digit (covered + 2) rest
      else covered

def digitsLength (digit : Char → Bool) : List Char → Nat
  | [] => 0
  | character :: rest => if digit character then digitsFrom digit 1 rest else 0

/-- The length of a fraction. A point belongs to a number only before a digit. -/
def fractionLength (digit : Char → Bool) : List Char → Nat
  | '.' :: rest =>
      let digits := digitsLength digit rest
      if digits == 0 then 0 else digits + 1
  | _ => 0

def signLength : List Char → Nat
  | '+' :: _ | '-' :: _ => 1
  | _ => 0

/-- The length of an exponent: a marker, a sign if there is one, and decimal digits. -/
def exponentLength (marker : Char) : List Char → Nat
  | [] => 0
  | character :: rest =>
      if character.toLower == marker then
        let sign := signLength rest
        let digits := digitsLength isDecimalDigit (rest.drop sign)
        if digits == 0 then 0 else digits + sign + 1
      else 0

def tailLength (digit : Char → Bool) (marker : Char) (text : List Char) : Nat :=
  let fraction := fractionLength digit text
  fraction + exponentLength marker (text.drop fraction)

/-- How a number is written: in decimal, or after a prefix. The prefix `0h` spells a bit pattern. -/
inductive NumberForm where
  | decimal | binary | octal | hexadecimal | floatBits
  deriving DecidableEq

/-- The form of a number whose prefix ends in `letter`, and the digits of that form. -/
def prefixedForm? (letter : Char) : Option (NumberForm × (Char → Bool)) :=
  match letter with
  | 'b' | 'B' => some (.binary, isBinaryDigit)
  | 'o' | 'O' => some (.octal, isOctalNumeral)
  | 'x' | 'X' => some (.hexadecimal, isHexNumeral)
  | 'h' | 'H' => some (.floatBits, isHexNumeral)
  | _ => none

/-- The extent of a number: its form, the length of its integer part with the prefix, and the length
of its fraction and exponent. -/
structure NumberExtent where
  form : NumberForm
  integer : Nat
  tail : Nat
  deriving DecidableEq

namespace NumberExtent

def length (extent : NumberExtent) : Nat := extent.integer + extent.tail

end NumberExtent

def decimalExtent (integer : Nat) (text : List Char) : NumberExtent :=
  ⟨.decimal, integer, tailLength isDecimalDigit 'e' (text.drop integer)⟩

/-- The extent of the digits after a prefix. By the pattern they end in a digit, but the automaton
takes one underscore behind them whether a digit follows or not. Only hexadecimal ones have a
fraction or an exponent. -/
def prefixedExtent (form : NumberForm) (digit : Char → Bool) (digits : Nat) (text : List Char) :
    NumberExtent :=
  let after := text.drop (digits + 2)
  let separator := if after.head? == some '_' then 1 else 0
  let tail :=
    match form with
    | .hexadecimal | .floatBits => tailLength digit 'p' (after.drop separator)
    | _ => 0
  ⟨form, digits + 2 + separator, tail⟩

/-- The extent of the number at the front of a text that starts with a digit. By the patterns a
prefix without a digit of its base behind it is a zero and a word, but the automaton stops behind the
letter with the answer of decimal numbers: two characters, and a fraction and an exponent if they
follow. -/
def numberExtent (text : List Char) : NumberExtent :=
  match text with
  | '0' :: letter :: rest =>
      match prefixedForm? letter with
      | some (form, digit) =>
          let digits := digitsLength digit rest
          if digits == 0 then decimalExtent 2 text else prefixedExtent form digit digits text
      | none => decimalExtent (digitsLength isDecimalDigit text) text
  | _ => decimalExtent (digitsLength isDecimalDigit text) text

/-! ### Fixed spellings -/

inductive FixedSpelling where
  | token (kind : TokenKind)
  | lineComment
  | blockComment
  | string
  deriving DecidableEq

/-- Every fixed spelling, the longer ones first. -/
def fixedSpellings : List (List Char × FixedSpelling) :=
  [(['<', '<', '<', '='], .token .rotLEq), (['>', '>', '>', '='], .token .rotREq),
   (['=', '=', '='], .token .tripleEq), (['-', '-', '-'], .token .tripleDash),
   (['<', '<', '<'], .token .rotL), (['>', '>', '>'], .token .rotR),
   (['<', '<', '='], .token .shlEq), (['>', '>', '='], .token .shrEq),
   (['|', '|', '='], .token .orOrEq), (['&', '&', '='], .token .andAndEq),
   (['/', '/'], .lineComment), (['/', '*'], .blockComment),
   ([':', ':'], .token .colonColon), (['.', '.'], .token .dotDot),
   (['-', '>'], .token .arrow), (['=', '>'], .token .fatArrow),
   (['=', '='], .token .eqEq), (['!', '='], .token .notEq),
   (['<', '='], .token .ltEq), (['>', '='], .token .gtEq),
   (['<', '<'], .token .shl), (['>', '>'], .token .shr),
   (['&', '~'], .token .ampTilde), (['&', '&'], .token .andAnd), (['|', '|'], .token .orOr),
   (['+', '='], .token .plusEq), (['-', '='], .token .minusEq), (['*', '='], .token .starEq),
   (['/', '='], .token .slashEq), (['%', '='], .token .percentEq), (['&', '='], .token .ampEq),
   (['|', '='], .token .pipeEq), (['^', '='], .token .caretEq),
   (['"'], .string),
   (['('], .token .lParen), ([')'], .token .rParen),
   (['\x7b'], .token .lBrace), (['\x7d'], .token .rBrace),
   (['['], .token .lBracket), ([']'], .token .rBracket),
   ([','], .token .comma), ([';'], .token .semicolon), ([':'], .token .colon),
   (['.'], .token .dot), (['='], .token .eq), (['<'], .token .lt), (['>'], .token .gt),
   (['+'], .token .plus), (['-'], .token .minus), (['*'], .token .star), (['/'], .token .slash),
   (['%'], .token .percent), (['&'], .token .amp), (['|'], .token .pipe), (['^'], .token .caret),
   (['~'], .token .tilde), (['!'], .token .bang), (['$'], .token .dollar)]

def fixedSpelling? (text : List Char) : Option (List Char × FixedSpelling) :=
  fixedSpellings.find? (fun entry => entry.1.isPrefixOf text)

end JaiSyntax
