import JaiSyntax.Production.DirectiveExpression
/-!
Control flow: branches, cases, loops and jumps.
-/

set_option autoImplicit false

namespace JaiSyntax

/-- Whether loop names between commas and a colon stand from `distance` on, `budget` names at most. -/
def loopNamesAt (kindAt : Nat → TokenKind) : Nat → Nat → Bool
  | 0, _ => false
  | budget + 1, distance =>
      kindAt distance == .ident &&
        match kindAt (distance + 1) with
        | .colon => true
        | .comma => loopNamesAt kindAt budget (distance + 2)
        | _ => false

namespace View

def isAtLoopNames (view : View) : Bool := loopNamesAt view.kindAt 3 0

end View

namespace Production

def switchCase : Production Unit :=
  node .switchCase (do
    bumpKeyword
    onlyIf (fun view => !view.isAt .semicolon) (expressionAs .value)
    expect .semicolon
    asLongAs (fun view => !view.isWordAt 0 "case" && !view.endsAt .rBrace) listedStatement)

/-- The cases of a branch. What is no case becomes an error node. -/
def switchCases : Production Unit :=
  upToSkipping .rBrace .semicolon (do
    if ← checkWord ["case"] then guarded switchCase
    else guarded (refuse (.expected .caseLabel)))

def casesTail : Production Unit :=
  wrap .ifCaseStatement (do
    bump
    opened (do
      bump
      fresh switchCases
      closeBrace))

def branchTail : Production Unit :=
  wrap .ifStatement (do
    discard (eatWord "then")
    substatement (some .consequence)
    if ← eatWord "else" then substatement (some .alternative))

/-- A branch: alternatives, or cases after a comparison with nothing. -/
def branch : Production Unit :=
  marked (do
    introducer
    within (·.including .condition) expression
    tag .condition
    if ← look (fun view => view.isAt .eqEq && view.kindAt 1 == .lBrace) then casesTail
    else branchTail)

def conditionName : Production Unit := do
  bumpTagged .name
  bump
  onlyIf (fun view => !view.isAt .eq) (typeAs .type)
  expect .eq

def whileLoop : Production Unit :=
  node .whileStatement (do
    bumpKeyword
    onlyIf (·.isNameBefore .colon) conditionName
    expressionAs .condition
    substatement (some .body))

def loopModifiers : Production Unit := do
  onlyIf (·.isDirectiveIn ["#v2"]) (bumpTagged .modifier)
  onlyIf (·.isAt .lt) (bumpTagged .modifier)
  onlyIf (·.isAt .star) (bumpTagged .modifier)

def loopNames : Production Unit := do
  commaSeparated (bumpTagged .value)
  expect .colon

def forLoop : Production Unit :=
  node .forStatement (do
    bumpKeyword
    loopModifiers
    onlyIf (·.isAtLoopNames) loopNames
    expression
    substatement (some .body))

def returnJump : Production Unit :=
  node .returnStatement (do
    bumpKeyword
    onlyIf (fun view => !view.isAt .semicolon && !view.endsAt .rBrace) (expressionsAs .value))

/-- A jump out of a loop or to its next round, with the label of the loop. -/
def loopJump (kind : NodeKind) : Production Unit :=
  node kind (do
    bumpKeyword
    onlyIf (·.isAt .ident) (bumpTagged .label))

/-- A statement put off to the end of its block. -/
def deferred : Production Unit :=
  node .deferStatement (do
    bumpKeyword
    substatement (some .body))

def removal : Production Unit :=
  node .removeStatement (do
    bumpKeyword
    onlyIf (fun view => !view.isAt .semicolon) (expressionAs .value))

def pushedContext : Production Unit :=
  node .pushContextStatement (do
    bumpKeyword
    expressionAs .value
    bodyBlock)

end Production

end JaiSyntax
