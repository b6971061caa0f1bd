import JaiSyntax.Production.Basic
/-!
Arguments of calls, of types and of directives, and the entries of struct and array literals.
-/

set_option autoImplicit false

namespace JaiSyntax.Production

/-- A named argument, the spread of an array, or what `positional` reads. -/
def argument (positional : Production Unit) : Production Unit := do
  if ← look (·.isNameBefore .eq) then
    node .namedArgument (do
      bumpTagged .name
      bump
      expressionAs .value)
  else if ← check .dotDot then
    node .spreadArgument (do
      bump
      expressionAs .value)
  else positional

/-- Arguments in parentheses. A slot between commas may be empty. -/
def argumentList (positional : Production Unit) : Production Unit := do
  expect .lParen
  amongArguments (upToSkipping .rParen .comma (do
    argument positional
    tag .argument
    commaBefore .rParen))
  expect .rParen

def callArguments : Production Unit := argumentList expression

def literalEntry : Production Unit := do
  if ← look (·.isNameBefore .eq) then
    node .assignmentStatement (do
      identifierNode
      tag .left
      bumpTagged .operator
      expressionAs .right)
  else expression

def literalEntries (close : TokenKind) : Production Unit :=
  amongArguments (repeatedly (do
    if ← look (·.endsAt close) then pure false
    else
      literalEntry
      tag .element
      eat .comma))

def structEntries : Production Unit := do
  bump
  opened (do
    bump
    literalEntries .rBrace
    closeBrace)

def arrayEntries : Production Unit := do
  bump
  bump
  literalEntries .rBracket
  expect .rBracket

end JaiSyntax.Production
