import JaiSyntax.Token.Basic
/-!
A cursor over the significant tokens of a source. The extras between them (white space, comments,
notes and deprecation notices) are stepped over and handed out in one batch, right before the next
token is placed in the tree.
-/

set_option autoImplicit false

namespace JaiSyntax

/-- What may stand between significant tokens: a token of layout or remark, or a deprecation notice,
which is a directive with the message after it. -/
inductive Extra where
  | token (token : Token)
  | deprecated (group : List Token)
  deriving DecidableEq

namespace Extra

def tokens : Extra → List Token
  | .token single => [single]
  | .deprecated group => group

end Extra

structure Stop where
  token : Token
  gap : List Extra
  deriving DecidableEq

def isDeprecation (token : Token) : Bool := token.isDirective "#deprecated"

def isStringPart (token : Token) : Bool :=
  token.kind == .stringContent || token.kind == .escapeSequence

/-- The number of tokens after a deprecation directive that belong to its notice: a string literal
and the extras before it, if one follows. A literal that never closes is a single error token. -/
def noticeLength (tokens : List Token) : Nat :=
  let extras := (tokens.takeWhile (fun token => token.kind.isExtra)).length
  match tokens.drop extras with
  | [] => 0
  | first :: rest =>
      if first.kind == .quote then
        let parts := (rest.takeWhile isStringPart).length
        match rest.drop parts with
        | [] => extras + parts + 1
        | last :: _ => if last.kind == .quote then extras + parts + 2 else extras + parts + 1
      else if first.kind == .error then extras + 1
      else 0

/-- Part a token list into the extras before the first significant token and the significant tokens
with the extras after each. The end of the file ends the list. Every step takes a token, so the list
bounds the number of steps. -/
def partTokens : List Token → List Token → List Extra × List Stop
  | _, [] => ([], [])
  | [], _ => ([], [])
  | _ :: bound, token :: rest =>
      if token.kind == .eof then ([], [])
      else if token.kind.isExtra then
        let (gap, stops) := partTokens bound rest
        (.token token :: gap, stops)
      else if isDeprecation token then
        let length := noticeLength rest
        let (gap, stops) := partTokens bound (rest.drop length)
        (.deprecated (token :: rest.take length) :: gap, stops)
      else
        let (gap, stops) := partTokens bound rest
        ([], ⟨token, gap⟩ :: stops)

/-- The extras before the current token that were not handed out yet, the significant tokens from the
current one on, how many were consumed, the last one consumed, and the end of the file. -/
structure TokenCursor where
  gap : List Extra
  ahead : List Stop
  position : Nat
  previous : Token
  endOfFile : Token

namespace TokenCursor

def ofTokens (size : Nat) (tokens : List Token) : TokenCursor :=
  let (gap, stops) := partTokens tokens tokens
  ⟨gap, stops, 0, .endOfFile 0, .endOfFile size⟩

/-- The significant token `distance` places ahead; past the last one, the end of the file. -/
def peek (cursor : TokenCursor) (distance : Nat) : Token :=
  match cursor.ahead[distance]? with
  | some stop => stop.token
  | none => cursor.endOfFile

def current (cursor : TokenCursor) : Token := cursor.peek 0

def isAtEnd (cursor : TokenCursor) : Bool := cursor.current.kind == .eof

def takeExtras (cursor : TokenCursor) : List Extra × TokenCursor :=
  (cursor.gap, { cursor with gap := [] })

/-- Consume the current token. At the end of the file the cursor stays where it is. -/
def advance (cursor : TokenCursor) : Token × TokenCursor :=
  match cursor.ahead with
  | [] => (cursor.endOfFile, cursor)
  | stop :: rest =>
      (stop.token,
        { cursor with
          gap := stop.gap
          ahead := rest
          position := cursor.position + 1
          previous := stop.token })

end TokenCursor

/-- The number of tokens that spell a double colon `distance` places ahead: one fused token, or two
single colons with layout between them. -/
def doubleColonAt? (kindAt : Nat → TokenKind) (distance : Nat) : Option Nat :=
  match kindAt distance with
  | .colonColon => some 1
  | .colon => if kindAt (distance + 1) == .colon then some 2 else none
  | _ => none

end JaiSyntax
