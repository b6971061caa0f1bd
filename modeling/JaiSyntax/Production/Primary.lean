import JaiSyntax.Production.Type
/-!
Primary expressions. A word, a number or a bracket tells which one it is; a parenthesis takes a bounded
look at the tokens that follow.
-/

set_option autoImplicit false

namespace JaiSyntax

/-- Whether the bracket that `depth` open brackets and a parenthesis before `distance` leave open is a
parenthesis followed by an arrow. The scan takes `budget` tokens at most. -/
def closesBeforeArrow (kindAt : Nat → TokenKind) : Nat → Nat → Nat → Bool
  | 0, _, _ => false
  | budget + 1, depth, distance =>
      match kindAt distance, depth with
      | .lParen, _ | .lBracket, _ | .lBrace, _ =>
          closesBeforeArrow kindAt budget (depth + 1) (distance + 1)
      | .rParen, 0 => kindAt (distance + 1) == .fatArrow
      | .rBracket, 0 | .rBrace, 0 => false
      | .rParen, outer + 1 | .rBracket, outer + 1 | .rBrace, outer + 1 =>
          closesBeforeArrow kindAt budget outer (distance + 1)
      | .semicolon, _ | .eof, _ => false
      | _, _ => closesBeforeArrow kindAt budget depth (distance + 1)

namespace View

def isAtQuickParameters (view : View) : Bool := closesBeforeArrow view.kindAt 63 0 1

def isAtParameterList (view : View) : Bool :=
  match view.kindAt 1 with
  | .rParen | .dollar => true
  | .ident =>
      view.textAt 1 == "using" || view.kindAt 2 == .colon || view.kindAt 2 == .comma
  | _ => false

end View

namespace Production

def quickBody : Production Unit := do
  bump
  if ← check .lBrace then block else expression
  tag .body

/-- A parameter of a quick procedure: a bare name or a named parameter. -/
def quickParameter : Production Unit := do
  if ← look (·.isAtParameter) then parameter
  else if ← check .ident then identifierNode
  else refuse (.expected .parameterName)

def quickProcedure : Production Unit :=
  node .quickProcedure (do
    bump
    amongArguments (upTo .rParen (do
      quickParameter
      tag .parameters
      commaBefore .rParen))
    expect .rParen
    quickBody)

def singleQuickProcedure : Production Unit :=
  node .quickProcedure (do
    identifierNode
    tag .parameters
    quickBody)

/-- An expression in parentheses. Before an arrow it is the parameter list of a procedure type. -/
def parenthesized : Production Unit :=
  marked (do
    node .parenthesizedExpression (do
      bump
      fresh expression
      expect .rParen)
    onlyIf (·.isAt .arrow) (do
      act .spliceParameters
      wrap .procedureType (do
        bump
        results)))

def parenthesis : Production Operand := do
  if ← look (·.isAtQuickParameters) then closedOperand quickProcedure
  else if ← look (·.isAtParameterList) then procedure
  else openOperand parenthesized

def inlineCall : Production Unit :=
  marked (do
    bumpKeyword
    tag .modifier
    identifierNode
    if ← check .lParen then
      tag .function
      wrap .callExpression callArguments
    else refuse (.expected (.token .lParen)))

/-- A literal or a member whose type is left to its place. -/
def implicitOperand : Production Unit := do
  match ← look (·.kindAt 1) with
  | .lBrace => node .structLiteral structEntries
  | .lBracket => node .arrayLiteral arrayEntries
  | .ident =>
      node .memberExpression (do
        bump
        bumpTagged .member)
  | _ => refuse (.expected .expression)

def word : Production Operand := do
  if ← checkWord ["true", "false"] then openOperand (keywordNode .boolean)
  else if ← checkWord ["null"] then openOperand (keywordNode .null)
  else if ← checkWord structWords then closedOperand anonymousStruct
  else if ← checkWord enumWords then closedOperand anonymousEnum
  else if ← checkWord ["ifx"] then closedOperand conditionalExpression
  else if ← look (·.isAtTypeOf) then openOperand typeOf
  else if ← look (fun view =>
      view.isWordIn ["inline", "no_inline"] && view.kindAt 1 == .ident) then openOperand inlineCall
  else if ← checkWord statementWords then refuse (.expected .expression)
  else if ← checkWord builtinTypes then openOperand (leafNode .builtinType)
  else if ← look (·.isNameBefore .fatArrow) then closedOperand singleQuickProcedure
  else openOperand identifierNode

def primary : Production Operand := do
  match ← look (·.kind) with
  | .ident => word
  | .int => openOperand (leafNode .integer)
  | .float => openOperand (leafNode .float)
  | .quote => openOperand stringLiteral
  | .directive => directiveExpression
  | .lParen => parenthesis
  | .lBracket | .dollar => openOperand type
  | .dot => openOperand implicitOperand
  | .tripleDash => openOperand (leafNode .uninitialized)
  | .error => openOperand (leafNode .error)
  | _ => refuse (.expected .expression)

end Production

end JaiSyntax
