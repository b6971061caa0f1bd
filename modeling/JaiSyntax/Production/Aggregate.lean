import JaiSyntax.Production.Procedure
/-!
Structs and enums from their keyword on. Declarations and anonymous types share their tails.
-/

set_option autoImplicit false

namespace JaiSyntax

def structWords : List String := ["struct", "union"]

def enumWords : List String := ["enum", "enum_flags"]

namespace Production

/-- The double colon at the current token, if there is one, and then `body`. -/
def afterDoubleColon (body : Production Unit) : Production Unit := do
  if let some colons ← look (fun view => doubleColonAt? view.kindAt 0) then
    times colons bump
    body

def structTail : Production Unit := do
  onlyIf (·.isAt .lParen) parameterList
  discard (directiveModifiers (·.isAt .directive))
  opened (do
    expect .lBrace
    fresh statementList
    closeBrace)

/-- A member of an enum with its value and its semicolon. A missing semicolon is reported. -/
def enumMember : Production Unit := do
  node .enumMember (do
    bumpTagged .name
    afterDoubleColon (expressionAs .value))
  unless ← eat .semicolon do
    onlyIf (fun view => !view.isAt .rBrace) (act (.report .missingAfterEnumMember))

/-- The members of an enum. What is no name becomes an error node. -/
def enumMembers : Production Unit :=
  upToSkipping .rBrace .semicolon (do
    if ← check .ident then guarded enumMember else guarded (refuse (.expected .enumMember)))

def enumDirective : Production Unit := do
  if ← checkDirective ["#specified"] then leafNode .specifiedDirective
  else
    directiveModifier
    tag .modifier

def enumTail : Production Unit := do
  onlyIf (fun view => !view.isAt .lBrace && !view.isAt .directive) (typeAs .type)
  asLongAs (·.isAt .directive) enumDirective
  opened (do
    expect .lBrace
    fresh enumMembers
    closeBrace)

def anonymousStruct : Production Unit :=
  node .anonymousStructType (do
    bumpKeyword
    structTail)

def anonymousEnum : Production Unit :=
  node .anonymousEnumType (do
    bumpKeyword
    enumTail)

end Production

end JaiSyntax
