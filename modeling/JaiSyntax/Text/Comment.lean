import JaiSyntax.Text.Unit
/-!
The extent of comments. Block comments nest. A line comment ends before its line break, unless a
backslash escapes the break.
-/

set_option autoImplicit false

namespace JaiSyntax

open SourceUnit

variable {α : Type} [SourceUnit α]

/-- How a block comment ends: at its closer, or at the end of the text with `depth` comments open. -/
inductive CommentEnd where
  | terminated
  | unterminated (depth : Nat)
  deriving DecidableEq

/-- Read block comment text in which `depth` comments are open and `covered` units are already
covered. Openers and closers are found from left to right; the result is how the comment ends and
how many units it covers. -/
def blockCommentFrom (depth covered : Nat) : List α → CommentEnd × Nat
  | [] => (.unterminated depth, covered)
  | [_] => (.unterminated depth, covered + 1)
  | first :: second :: rest =>
      if is '/' first && is '*' second then
        blockCommentFrom (depth + 1) (covered + 2) rest
      else if is '*' first && is '/' second then
        if depth ≤ 1 then (.terminated, covered + 2)
        else blockCommentFrom (depth - 1) (covered + 2) rest
      else blockCommentFrom depth (covered + 1) (second :: rest)

def blockComment (units : List α) : CommentEnd × Nat := blockCommentFrom 1 2 (units.drop 2)

/-- Read line comment text after `covered` units. A run of backslashes escapes the character after
it, which may be a line break; `escaped` says that such a run was just read. -/
def lineCommentFrom (escaped : Bool) (covered : Nat) : List α → Nat
  | [] => covered
  | unit :: rest =>
      if is '\\' unit then lineCommentFrom true (covered + 1) rest
      else if escaped then
        match rest with
        | [] => covered + 1
        | next :: after =>
            if is '\r' unit && is '\n' next then lineCommentFrom false (covered + 2) after
            else lineCommentFrom false (covered + 1) (next :: after)
      else if is '\n' unit then covered
      else lineCommentFrom false (covered + 1) rest

def lineComment (units : List α) : Nat := lineCommentFrom false 2 (units.drop 2)

end JaiSyntax
