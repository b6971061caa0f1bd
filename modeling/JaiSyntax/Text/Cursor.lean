import JaiSyntax.Text.Comment
import JaiSyntax.Text.StringPiece
import JaiSyntax.Text.Heredoc
/-!
A cursor over the bytes of a source: a position and the bytes from there on. Reading at or past the
end of the source gives the zero byte, so the position decides whether a zero byte ends the source.
The scanners move the cursor by the number of bytes that they cover.
-/

set_option autoImplicit false

namespace JaiSyntax

structure Cursor where
  position : Nat
  rest : List UInt8
  deriving DecidableEq

namespace Cursor

open SourceUnit

/-- A cursor at `position` in a source, or at its end when the source is shorter. -/
def atPosition (source : List UInt8) (position : Nat) : Cursor :=
  ⟨min position source.length, source.drop position⟩

def isAtEnd (cursor : Cursor) : Bool := cursor.rest.isEmpty

/-- The byte at the cursor, zero at the end. -/
def current (cursor : Cursor) : UInt8 := cursor.rest.headD 0

def peek (cursor : Cursor) : UInt8 := (cursor.rest.drop 1).headD 0

/-- The cursor moved over `count` bytes, and never past the end. -/
def advance (cursor : Cursor) (count : Nat) : Cursor :=
  ⟨cursor.position + min count cursor.rest.length, cursor.rest.drop count⟩

theorem atPosition_advance (source : List UInt8) (position count : Nat) :
    (atPosition source position).advance count = atPosition source (position + count) := by
  have length : (source.drop position).length = source.length - position := List.length_drop
  simp only [atPosition, advance, List.drop_drop, length, Cursor.mk.injEq, and_true]
  omega

def startsWith (cursor : Cursor) (text : List UInt8) : Bool := text.isPrefixOf cursor.rest

def advanceCharacter (cursor : Cursor) : Cursor := cursor.advance (characterLength cursor.rest)

def advanceWhile (cursor : Cursor) (test : UInt8 → Bool) : Cursor :=
  cursor.advance (runLength test cursor.rest)

/-- Move to the first byte that satisfies a test, or to the end; the byte found there, or zero. -/
def advanceTo (cursor : Cursor) (test : UInt8 → Bool) : UInt8 × Cursor :=
  let moved := cursor.advanceWhile (fun byte => !test byte)
  (moved.current, moved)

def advanceToLineFeed (cursor : Cursor) : Cursor := (cursor.advanceTo (is '\n')).2

def advanceLineBreak (cursor : Cursor) : Bool × Cursor :=
  let length := lineBreakLength cursor.rest
  (0 < length, cursor.advance length)

def blockComment (cursor : Cursor) : CommentEnd × Cursor :=
  let (ending, length) := JaiSyntax.blockComment cursor.rest
  (ending, cursor.advance length)

def lineComment (cursor : Cursor) : Cursor :=
  cursor.advance (JaiSyntax.lineComment cursor.rest)

def stringPiece (cursor : Cursor) : StringPiece × Cursor :=
  let (piece, length) := JaiSyntax.stringPiece cursor.rest
  (piece, cursor.advance length)

/-- Move over the string pieces up to a closing quote or the end, `budget` of them at most. Each
piece comes with the position after it. -/
def stringPieces : Nat → Cursor → List (StringPiece × Nat) × Cursor
  | 0, cursor => ([], cursor)
  | budget + 1, cursor =>
      let (piece, next) := cursor.stringPiece
      match piece with
      | .close | .endOfInput => ([(piece, next.position)], next)
      | _ =>
          let (pieces, last) := stringPieces budget next
          ((piece, next.position) :: pieces, last)

def stringBody (cursor : Cursor) : List (StringPiece × Nat) × Cursor :=
  stringPieces (cursor.rest.length + 1) cursor

/-- Move over blanks and the heredoc delimiter after them; the range of the delimiter, if there is
one. -/
def heredocDelimiter (cursor : Cursor) : Option (Nat × Nat) × Cursor :=
  let (blanks, length) := JaiSyntax.heredocDelimiter cursor.rest
  let moved := cursor.advance (blanks + length)
  (if 0 < length then some (moved.position - length, moved.position) else none, moved)

/-- Move to the delimiter that closes a heredoc body, or to the end; whether it was found. -/
def heredocBody (cursor : Cursor) (delimiter : List UInt8) : Bool × Cursor :=
  let (terminated, length) := JaiSyntax.heredocBody delimiter cursor.rest
  (terminated, cursor.advance length)

end Cursor

end JaiSyntax
