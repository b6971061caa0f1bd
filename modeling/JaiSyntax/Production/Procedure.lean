import JaiSyntax.Production.Directive
/-!
Parameters, results and procedures. A parameter list is followed by a body in a procedure and by none
in a procedure type; in a type it is always the latter.
-/

set_option autoImplicit false

namespace JaiSyntax

namespace View

/-- The number of dollar signs from `distance` on, three places ahead at most. -/
def dollarsFrom (view : View) (distance : Nat) : Nat :=
  (((List.range 3).drop distance).takeWhile (fun place => view.kindAt place == .dollar)).length

def isAtParameter (view : View) : Bool :=
  let start := if view.isWordAt 0 "using" then 1 else 0
  let place := start + view.dollarsFrom start
  view.kindAt place == .ident && view.kindAt (place + 1) == .colon

end View

namespace Production

def defaultValue : Production Unit := do
  if ← eat .eq then expressionAs .defaultValue

/-- A named parameter. Its type may be left to its default value. -/
def parameter : Production Unit :=
  node .parameter (do
    onlyIf (·.isWordIn ["using"]) (do
      bumpKeyword
      tag .keyword)
    asLongAs (·.isAt .dollar) (bumpTagged .modifier)
    bumpTagged .name
    expect .colon
    onlyIf (fun view => !view.isAt .eq) (typeAs .type)
    defaultValue)

def parameterList : Production Unit := do
  expect .lParen
  amongArguments (upTo .rParen (do
    if ← look (·.isAtParameter) then parameter else type
    tag .parameters
    commaBefore .rParen))
  expect .rParen

def result : Production Unit := do
  if ← look (·.isNameBefore .colon) then
    node .namedReturn (do
      bumpTagged .name
      bump
      typeAs .type
      defaultValue)
  else type
  tag .result

/-- Named results in parentheses, or results between commas. Inside a list of arguments a comma ends
the results. -/
def results : Production Unit := do
  if ← look (fun view =>
      view.isAt .lParen && view.kindAt 1 == .ident && view.kindAt 2 == .colon) then
    bump
    amongArguments (upTo .rParen (do
      result
      commaBefore .rParen))
    expect .rParen
  else
    result
    asLongAs (fun view => !view.context.inArguments && view.isAt .comma) (do
      bump
      result)

/-- A procedure or a procedure type. It is a procedure if it has a body or directives and does not
stand in a type. -/
def procedure : Production Operand :=
  marked (do
    let inType ← look (·.context.inType)
    parameterList
    if ← eat .arrow then results
    let hasDirectives ← directiveModifiers (·.isDirectiveIn procedureDirectives)
    let hasBody ← look (fun view => !inType && view.isAt .lBrace)
    if hasBody then bodyBlock
    wrap (if !inType && (hasBody || hasDirectives) then .procedure else .procedureType) (pure ())
    pure (if hasBody then .closed else .isOpen))

end Production

end JaiSyntax
