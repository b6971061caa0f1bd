import JaiSyntax.Grammar.Rule
import JaiSyntax.Parser.State
/-!
Productions: the parts of the grammar as data. A production is a program that looks at the tokens
ahead, moves on, opens nodes around what it does, and may refuse to go on. Nodes are opened and closed
by one constructor each, so every production leaves the nodes around it balanced, and what it can look
at holds no layout.

The three parts of the grammar that contain each other (expressions, types and statements) are entered
by name, so that no production contains itself.
-/

set_option autoImplicit false

namespace JaiSyntax

/-- What a production can look at: the kinds and texts of the significant tokens by their distance,
the kind of the last token consumed, the context, and the kind of the last node of the innermost open
node. -/
structure View where
  kindAt : Nat → TokenKind
  textAt : Nat → String
  previous : TokenKind
  context : Context
  lastNode : Option NodeKind

/-- The parts of the grammar that are entered by name. The binary operators of an expression bind at
least as tight as `least`. -/
inductive Entry where
  | expression (least : Prec)
  | type
  | statement
  deriving DecidableEq

inductive Production : Type → Type 1 where
  | pure {α : Type} (value : α) : Production α
  | bind {α β : Type} (first : Production α) (next : α → Production β) : Production β
  /-- Read something off the view. -/
  | look {α : Type} (read : View → α) : Production α
  | act (move : Move) : Production Unit
  /-- Fail with an error at the current token. -/
  | refuse {α : Type} (complaint : Complaint) : Production α
  /-- Go on in another context, which ends with the body. -/
  | within {α : Type} (change : Context → Context) (body : Production α) : Production α
  /-- Open a node at the current token and close it after the body. -/
  | node {α : Type} (kind : NodeKind) (body : Production α) : Production α
  /-- Remember the place before the current token. -/
  | marked {α : Type} (body : Production α) : Production α
  /-- Open a node around everything since the innermost mark and close it after the body. -/
  | wrap {α : Type} (kind : NodeKind) (body : Production α) : Production α
  /-- Remember the current token as the opening brace of the body. -/
  | opened {α : Type} (body : Production α) : Production α
  /-- Turn a body that fails into an error node and go on. -/
  | guarded (body : Production Unit) : Production Unit
  /-- Repeat the body until it yields `false`. -/
  | repeatedly (body : Production Bool) : Production Unit
  | enter (entry : Entry) : Production Unit

instance : Monad Production where
  pure := .pure
  bind := .bind

namespace View

def kind (view : View) : TokenKind := view.kindAt 0

def text (view : View) : String := view.textAt 0

def isAt (view : View) (kind : TokenKind) : Bool := view.kind == kind

def isAtEnd (view : View) : Bool := view.isAt .eof

def isWordAt (view : View) (distance : Nat) (word : String) : Bool :=
  view.kindAt distance == .ident && view.textAt distance == word

def isWordIn (view : View) (words : List String) : Bool :=
  view.isAt .ident && words.contains view.text

def isDirectiveIn (view : View) (names : List String) : Bool :=
  view.isAt .directive && names.contains view.text

def isNameBefore (view : View) (kind : TokenKind) : Bool :=
  view.isAt .ident && view.kindAt 1 == kind

/-- Whether the current token ends a list that `close` closes; the end of the file ends any. -/
def endsAt (view : View) (close : TokenKind) : Bool := view.isAt close || view.isAtEnd

end View

namespace Production

/-! ### Tokens -/

def check (kind : TokenKind) : Production Bool := look (·.isAt kind)

def checkWord (words : List String) : Production Bool := look (·.isWordIn words)

def checkDirective (names : List String) : Production Bool := look (·.isDirectiveIn names)

def bump : Production Unit := act .bump

def bumpKeyword : Production Unit := act .bumpKeyword

def tag (field : Field) : Production Unit := act (.tag field)

def bumpTagged (field : Field) : Production Unit := do
  bump
  tag field

/-- Consume the current token if it is of `kind`; yield whether it was. -/
def eat (kind : TokenKind) : Production Bool := do
  if ← check kind then
    bump
    pure true
  else pure false

/-- Consume the current token as a keyword if it is `word`; yield whether it was. -/
def eatWord (word : String) : Production Bool := do
  if ← checkWord [word] then
    bumpKeyword
    pure true
  else pure false

def expect (kind : TokenKind) : Production Unit := do
  unless ← eat kind do refuse (.expected (.token kind))

def expectName (field : Field) : Production Unit := do
  if ← check .ident then bumpTagged field else refuse (.expected .identifier)

/-- Consume the closing brace of the body that was opened last. A missing one is reported. -/
def closeBrace : Production Unit := do
  unless ← eat .rBrace do act (.report .unclosedBrace)

/-! ### Control -/

def onlyIf (condition : View → Bool) (body : Production Unit) : Production Unit := do
  if ← look condition then body

def asLongAs (condition : View → Bool) (body : Production Unit) : Production Unit :=
  repeatedly (do
    if ← look condition then
      body
      pure true
    else pure false)

/-- Repeat a production up to `close` or the end of the file. -/
def upTo (close : TokenKind) (body : Production Unit) : Production Unit :=
  asLongAs (fun view => !view.endsAt close) body

/-- Repeat a production up to `close` or the end of the file; a `separator` in place of one is taken
alone. -/
def upToSkipping (close separator : TokenKind) (body : Production Unit) : Production Unit :=
  upTo close (do unless ← eat separator do body)

/-- An item, and after each comma another one. -/
def commaSeparated (item : Production Unit) : Production Unit := do
  item
  repeatedly (do
    if ← eat .comma then
      item
      pure true
    else pure false)

/-- Require a comma unless `close` follows. -/
def commaBefore (close : TokenKind) : Production Unit :=
  onlyIf (fun view => !view.isAt close) (expect .comma)

def times : Nat → Production Unit → Production Unit
  | 0, _ => pure ()
  | count + 1, body => do
      body
      times count body

/-! ### Contexts and entries -/

/-- Go on as at the start of a statement. -/
def fresh {α : Type} (body : Production α) : Production α := within (fun _ => .none) body

/-- Go on as inside a list of arguments. -/
def amongArguments {α : Type} (body : Production α) : Production α :=
  within (fun _ => .arguments) body

/-- An expression whose binary operators bind at least as tight as `least`. -/
def operand (least : Prec) : Production Unit := enter (.expression least)

/-- A full expression. A type around it has no say in it. -/
def expression : Production Unit := within (·.excluding .type) (operand Prec.assignment)

def type : Production Unit := within (·.including .type) (enter .type)

def expressionAs (field : Field) : Production Unit := do
  expression
  tag field

def typeAs (field : Field) : Production Unit := do
  type
  tag field

def expressionsAs (field : Field) : Production Unit := commaSeparated (expressionAs field)

/-! ### Small nodes -/

def leafNode (kind : NodeKind) : Production Unit := node kind bump

def keywordNode (kind : NodeKind) : Production Unit := node kind bumpKeyword

def identifierNode : Production Unit := leafNode .identifier

/-- Settle which of the kinds that match here is meant. Without a declared conflict the ambiguity is
reported, and the kind of the highest dynamic precedence is used. -/
def settle (first : NodeKind) (others : List NodeKind) : Production NodeKind :=
  let candidates := first :: others
  match resolve (candidates.map NodeKind.name) with
  | .chosen rule => pure ((NodeKind.ofName? rule.name).getD first)
  | .unresolved fallback => do
      let chosen := (fallback.bind (fun rule => NodeKind.ofName? rule.name)).getD first
      act (.report (.ambiguous candidates chosen))
      pure chosen

end Production

/-- Whether an operand can still take operators. A construct that ends with its own body is
closed. -/
inductive Operand where
  | isOpen | closed
  deriving DecidableEq

end JaiSyntax
