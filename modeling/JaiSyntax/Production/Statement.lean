import JaiSyntax.Production.Assembly
import JaiSyntax.Production.Control
import JaiSyntax.Production.Declaration
import JaiSyntax.Production.Expression
/-!
Statements, and what the entries of the grammar stand for.
-/

set_option autoImplicit false

namespace JaiSyntax.Production

/-! ### Expressions and assignments -/

/-- The targets of an assignment after the first one. A comma may stand before the equals sign. -/
def furtherTargets : Production Unit :=
  repeatedly (do
    if ← eat .comma then
      if ← check .eq then pure false else andGoOn (expressionAs .left)
    else pure false)

def assignmentTail (kind : NodeKind) : Production Unit :=
  wrap kind (do
    bumpTagged .operator
    expressionsAs .right)

def expressionStatement : Production Unit :=
  marked (do
    expression
    if ← look (fun view =>
        view.isAt .comma || view.isAt .eq || view.kind.isCompoundAssign) then
      tag .left
      furtherTargets
      if ← check .eq then assignmentTail .assignmentStatement
      else if ← look (·.kind.isCompoundAssign) then assignmentTail .updateStatement
      else refuse (.expected (.token .eq)))

/-- A declaration or statement whose members become visible here. -/
def usingStatement : Production Unit :=
  node .usingStatement (do
    bumpKeyword
    tag .keyword
    asLongAs (·.isAt .comma) (do
      bump
      discard postfixExpression
      tag .modifier)
    substatement none)

/-! ### Directives -/

/-- Something run or inserted at compile time: a body with results, or a statement. -/
def compileTimeStatement (kind : NodeKind) : Production Unit :=
  node kind (do
    bump
    directiveOptions
    if ← eat .arrow then
      results
      bodyBlock
    else substatement none)

def loadDirective : Production Unit :=
  node .loadDirective (do
    bump
    stringLiteral
    tag .path)

def assertion : Production Unit :=
  node .assertDirective (do
    bump
    expressionAs .condition
    if ← eat .comma then expressionAs .message)

def moduleParameters : Production Unit :=
  node .moduleParametersDirective (do
    bump
    parameterList
    onlyIf (·.isAt .lParen) parameterList)

/-- A directive that applies to the statement after it. -/
def markedStatement (kind : NodeKind) : Production Unit :=
  node kind (do
    bump
    substatement none)

/-- A directive without a meaning of its own, with optional arguments. -/
def otherDirective : Production Unit :=
  node .compilerDirective (do
    bump
    onlyIf (·.isAt .lParen) callArguments)

def directiveStatementNamed (name : String) : Production Unit :=
  match name with
  | "#import" => node .importDirective importTail
  | "#load" => loadDirective
  | "#run" => compileTimeStatement .runStatement
  | "#insert" => compileTimeStatement .insertStatement
  | "#assert" => assertion
  | "#add_context" => markedStatement .addContextDirective
  | "#module_parameters" => moduleParameters
  | "#through" => leafNode .throughStatement
  | "#asm" => assembly
  | "#if" => branch
  | other =>
      if markingDirectives.contains other then markedStatement .compilerDirective
      else if expressionDirectives.contains other then expressionStatement
      else otherDirective

def directiveStatement : Production Unit := do
  directiveStatementNamed (← look (·.text))

/-- A directive whose name stands apart from its number sign. -/
def spacedDirective : Production Unit :=
  node .compilerDirective (do
    bump
    expectName .name)

/-! ### Statements -/

def wordStatement (word : String) : Production Unit :=
  match word with
  | "if" => branch
  | "while" => whileLoop
  | "for" => forLoop
  | "return" => returnJump
  | "break" => loopJump .breakStatement
  | "continue" => loopJump .continueStatement
  | "defer" => deferred
  | "using" => usingStatement
  | "remove" => removal
  | "push_context" => pushedContext
  | "operator" => do
      if ← look (·.isAtOperatorDeclaration) then operatorDeclaration else expressionStatement
  | _ => expressionStatement

/-- What the entry for statements stands for: a statement without its terminator. -/
def statementEntry : Production Unit := do
  match ← look (·.kind) with
  | .lBrace => block
  | .directive => directiveStatement
  | .hash => spacedDirective
  | .ident =>
      if ← look (·.isAtDeclaration) then declaration
      else wordStatement (← look (·.text))
  | _ => expressionStatement

def ofEntry : Entry → Production Unit
  | .expression least => expressionEntry least
  | .type => typeEntry
  | .statement => statementEntry

def sourceFile : Production Unit := asLongAs (fun view => !view.isAtEnd) listedStatement

end JaiSyntax.Production
