import JaiSyntax.Production.Aggregate
import JaiSyntax.Production.DirectiveExpression
/-!
Types.
-/

set_option autoImplicit false

namespace JaiSyntax

def builtinTypes : List String :=
  ["bool", "string", "int", "float", "float32", "float64", "s8", "s16", "s32", "s64", "u8", "u16",
   "u32", "u64", "void", "Type", "Any"]

/-- The words that start a statement and never an expression. -/
def statementWords : List String :=
  ["if", "while", "for", "return", "break", "continue", "defer", "using", "remove", "push_context",
   "case", "else", "then"]

namespace View

def canStartType (view : View) : Bool :=
  match view.kind with
  | .ident => !statementWords.contains view.text
  | .star | .lBracket | .lParen | .dollar | .dotDot | .directive => true
  | _ => false

def isAtTypeOf (view : View) : Bool := view.isWordAt 0 "type_of" && view.kindAt 1 == .lParen

end View

namespace Production

/-- An argument of a type: a type if the tokens can only be one, and an expression otherwise. -/
def typeArgument : Production Unit := do
  match ← look (·.kind) with
  | .star | .lBracket | .dollar | .dotDot => type
  | _ => expression

def qualifiedName : Production Unit :=
  marked (do
    identifierNode
    asLongAs (fun view => view.isAt .dot && view.kindAt 1 == .ident) (do
      tag .object
      wrap .qualifiedType (do
        bump
        bumpTagged .member))
    onlyIf (·.isAt .lParen) (do
      tag .type
      wrap .parameterizedStructType (argumentList typeArgument)))

def typeOf : Production Unit :=
  node .typeOfExpression (do
    bumpKeyword
    expect .lParen
    fresh expression
    tag .argument
    expect .rParen)

def namedType : Production Unit := do
  if ← checkWord structWords then anonymousStruct
  else if ← checkWord enumWords then anonymousEnum
  else if ← look (·.isAtTypeOf) then typeOf
  else if ← checkWord builtinTypes then leafNode .builtinType
  else qualifiedName

/-- An array type. In the place of a value the element type may be missing. -/
def arrayType : Production Unit :=
  node .arrayType (do
    bump
    if ← check .dotDot then bump
    else
      onlyIf (fun view => !view.isAt .rBracket) (do
        fresh expression
        tag .size)
    expect .rBracket
    onlyIf (·.canStartType) (typeAs .element))

/-- A type variable, with the interface it is restricted to. -/
def polymorphicType : Production Unit :=
  node .polymorphicType (do
    bump
    discard (eat .dollar)
    expectName .name
    if ← eat .slash then typeAs .type)

def prefixedType (kind : NodeKind) : Production Unit :=
  node kind (do
    bump
    type)

def typeEntry : Production Unit := do
  match ← look (·.kind) with
  | .ident => namedType
  | .star => prefixedType .pointerType
  | .lBracket => arrayType
  | .lParen => discard procedure
  | .dollar => polymorphicType
  | .dotDot => prefixedType .variadicType
  | .directive => discard directiveExpression
  | _ => refuse (.expected .type)

end Production

end JaiSyntax
