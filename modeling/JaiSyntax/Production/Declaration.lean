import JaiSyntax.Production.Aggregate
/-!
Declarations. A declaration starts with its names; which one it is shows only after them, so its node
is opened around the names at the end.
-/

set_option autoImplicit false

namespace JaiSyntax

/-- The operators that can be overloaded, each by the tokens that spell it, the longest first. -/
def overloadableOperators : List (List TokenKind) :=
  [[.lBracket, .rBracket, .eq], [.star, .lBracket, .rBracket], [.lBracket, .rBracket], [.plusEq],
   [.minusEq], [.starEq], [.slashEq], [.percentEq], [.ampEq], [.pipeEq], [.caretEq], [.shlEq],
   [.shrEq], [.rotLEq], [.rotREq], [.orOrEq], [.andAndEq], [.plus], [.minus], [.star], [.slash],
   [.percent], [.amp], [.pipe], [.caret], [.shl], [.shr], [.rotL], [.rotR], [.orOr], [.andAnd],
   [.eqEq], [.notEq], [.tilde], [.ampTilde], [.gt], [.gtEq], [.ltEq], [.lt]]

def spelledAt (kindAt : Nat → TokenKind) (distance : Nat) : List TokenKind → Bool
  | [] => true
  | kind :: rest => kindAt distance == kind && spelledAt kindAt (distance + 1) rest

/-- The number of tokens of the overloadable operator at `distance`, if a double colon follows it. -/
def operatorLengthAt? (kindAt : Nat → TokenKind) (distance : Nat) : Option Nat :=
  (overloadableOperators.find? (fun spelling =>
    spelledAt kindAt distance spelling
      && (doubleColonAt? kindAt (distance + spelling.length)).isSome)).map List.length

/-- Whether names between commas and a colon stand from `distance` on, `budget` names at most. -/
def namesBeforeColon (kindAt : Nat → TokenKind) : Nat → Nat → Bool
  | 0, _ => false
  | budget + 1, distance =>
      kindAt distance == .ident &&
        match kindAt (distance + 1) with
        | .colon | .colonColon => true
        | .comma => namesBeforeColon kindAt budget (distance + 2)
        | _ => false

namespace View

def isAtDeclaration (view : View) : Bool := namesBeforeColon view.kindAt 32 0

def isAtOperatorDeclaration (view : View) : Bool := (operatorLengthAt? view.kindAt 1).isSome

end View

namespace Production

def importTail : Production Unit := do
  bump
  directiveOptions
  stringLiteral
  tag .path
  onlyIf (·.isAt .lParen) callArguments

/-- The word before a procedure that asks for it to be inlined or not. -/
def procedureModifier : Production Unit :=
  onlyIf (fun view => view.isWordIn ["inline", "no_inline"] && view.kindAt 1 == .lParen) (do
    bumpKeyword
    tag .modifier)

/-- The definition of a name by its value; yields the kind of the declaration. -/
def valueDefinition : Production NodeKind := do
  procedureModifier
  expression
  if ← look (fun view => view.lastNode == some .procedure && !view.isAt .comma) then
    pure .procedureDeclaration
  else
    tag .value
    asLongAs (·.isAt .comma) (do
      bump
      expressionAs .value)
    pure .constDeclaration

def definition : Production NodeKind := do
  if ← checkWord structWords then
    let kind ← settle .structDeclaration [.anonymousStructType]
    if kind == .structDeclaration then
      bumpKeyword
      structTail
      pure kind
    else valueDefinition
  else if ← checkWord enumWords then
    let kind ← settle .constDeclaration [.enumDeclaration]
    if kind == .enumDeclaration then
      bumpKeyword
      enumTail
      pure kind
    else valueDefinition
  else if ← checkDirective ["#import"] then
    importTail
    pure .importDirective
  else valueDefinition

/-- The rest of a declaration after a single colon; yields its kind. -/
def typedDefinition : Production NodeKind := do
  onlyIf (fun view => !view.isAt .eq && !view.isAt .colon) (typeAs .type)
  if ← eat .colon then
    expressionsAs .value
    pure .constDeclaration
  else
    if ← eat .eq then expressionsAs .value
    pure .variableDeclaration

/-- The rest of a declaration after its names; yields its kind. Only a single name can be a struct, an
enum or a procedure. -/
def declarationTail (isSingle : Bool) : Production NodeKind := do
  match ← look (fun view => doubleColonAt? view.kindAt 0) with
  | some colons =>
      times colons bump
      if isSingle then definition
      else
        expressionsAs .value
        pure .constDeclaration
  | none =>
      expect .colon
      typedDefinition

def declaration : Production Unit :=
  marked (do
    bumpTagged .name
    let isSingle ← look (fun view => !view.isAt .comma)
    asLongAs (·.isAt .comma) (do
      bump
      expectName .name)
    let kind ← declarationTail isSingle
    wrap kind (pure ()))

def operatorDeclaration : Production Unit :=
  node .procedureDeclaration (do
    bumpKeyword
    let length ← look (fun view => (operatorLengthAt? view.kindAt 0).getD 1)
    times length (bumpTagged .operator)
    let colons ← look (fun view => (doubleColonAt? view.kindAt 0).getD 0)
    times colons bump
    procedureModifier
    expression)

end Production

end JaiSyntax
