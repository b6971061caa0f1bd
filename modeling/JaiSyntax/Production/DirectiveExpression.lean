import JaiSyntax.Production.Procedure
/-!
Directives in the place of an expression, and conditional expressions, which have a directive form.
-/

set_option autoImplicit false

namespace JaiSyntax.Production

def introducer : Production Unit := do
  if ← check .ident then bumpKeyword else bump

/-- A branch of a conditional expression: an expression, or expressions in braces. -/
def conditionalBranch : Production Unit := do
  if ← check .lBrace then
    node .ifExpressionBlock (opened (do
      bump
      fresh (upToSkipping .rBrace .semicolon (do
        expression
        onlyIf (fun view => !view.isAt .rBrace) (expect .semicolon)))
      closeBrace))
  else expression

def conditionalExpression : Production Unit :=
  node .ifExpression (do
    introducer
    expressionAs .condition
    discard (eatWord "then")
    conditionalBranch
    tag .consequence
    if ← eatWord "else" then
      conditionalBranch
      tag .alternative)

/-- Something run or inserted at compile time: a body with results, a block, or an operand. -/
def compileTimeExpression (kind : NodeKind) : Production Operand :=
  node kind (do
    bump
    directiveOptions
    if ← eat .arrow then
      results
      bodyBlock
      pure .closed
    else if ← check .lBrace then
      bodyBlock
      pure .closed
    else
      operand Prec.unary
      tag .value
      pure .isOpen)

def codeExpression : Production Unit :=
  node .directiveExpression (do
    bump
    directiveOptions
    if ← check .lBrace then bodyBlock else expressionAs .argument)

def typeLiteral : Production Unit :=
  node .typeLiteral (do
    bump
    directiveOptions
    typeAs .type)

def libraryDirective : Production Unit :=
  node .libraryDirective (do
    bump
    directiveOptions
    stringLiteral
    tag .path)

def appliedDirective : Production Unit :=
  node .directiveExpression (do
    bump
    operand Prec.unary
    tag .argument)

def plainDirective : Production Unit :=
  node .directiveExpression (do
    bump
    onlyIf (·.isAt .lParen) callArguments)

def openOperand (body : Production Unit) : Production Operand := do
  body
  pure .isOpen

def closedOperand (body : Production Unit) : Production Operand := do
  body
  pure .closed

def directiveExpressionNamed (name : String) : Production Operand :=
  match name with
  | "#char" => openOperand characterLiteral
  | "#string" => openOperand heredoc
  | "#run" => compileTimeExpression .runExpression
  | "#insert" => compileTimeExpression .insertExpression
  | "#type" => openOperand typeLiteral
  | "#library" => openOperand libraryDirective
  | "#system_library" => openOperand libraryDirective
  | "#ifx" => closedOperand conditionalExpression
  | "#code" => closedOperand codeExpression
  | "#bake_arguments" => openOperand appliedDirective
  | "#bake_constants" => openOperand appliedDirective
  | "#procedure_of_call" => openOperand appliedDirective
  | other =>
      if expressionDirectives.contains other then openOperand plainDirective
      else refuse (.expected .expression)

def directiveExpression : Production Operand := do
  directiveExpressionNamed (← look (·.text))

end JaiSyntax.Production
