import JaiSyntax.Production.Primary
/-!
Expressions: postfix, unary and binary operators. Binary operators climb by precedence: the right
operand takes only operators that bind tighter, so that operators of one level group to the left.
-/

set_option autoImplicit false

namespace JaiSyntax

namespace View

def canStartOperandAt (view : View) (distance : Nat) : Bool :=
  match view.kindAt distance with
  | .ident => !statementWords.contains (view.textAt distance)
  | .int | .float | .quote | .directive | .lParen | .lBracket | .dot | .dotDot | .dollar | .star
  | .plus | .minus | .bang | .tilde | .amp | .shl | .tripleDash => true
  | _ => false

/-- Whether the current token is the comparison that ends a condition before its cases. -/
def isAtCases (view : View) : Bool := view.isAt .eqEq && view.kindAt 1 == .lBrace

def isAtCast (view : View) : Bool :=
  view.isWordAt 0 "cast" && (view.kindAt 1 == .lParen || view.kindAt 1 == .comma)

def isAtAutomaticCast (view : View) : Bool := view.isWordAt 0 "xx" && view.canStartOperandAt 1

end View

namespace Production

/-! ### Postfix operators -/

def callOperator : Production Unit := do
  let kind ← settle .callExpression [.parameterizedStructType]
  tag (if kind == .callExpression then .function else .type)
  wrap kind callArguments

/-- One or two indexes around the operand before the current token. -/
def indexOperator : Production Unit := do
  tag .object
  wrap .indexExpression (do
    bump
    fresh (do
      expressionAs .index
      if ← eat .comma then expressionAs .index)
    expect .rBracket)

def memberOperator : Production Unit := do
  tag .object
  wrap .memberExpression (do
    bump
    bumpTagged .member)

/-- A dereference of the operand before the current token, spelled with `count` tokens. -/
def dereferenceOperator (count : Nat) : Production Unit := do
  tag .argument
  wrap .dereferenceExpression (times count bump)

/-- A literal whose type is the operand before the current token. -/
def typedLiteral (kind : NodeKind) (entries : Production Unit) : Production Unit := do
  act .reinterpretLast
  tag .type
  wrap kind entries

def andGoOn (body : Production Unit) : Production Bool := do
  body
  pure true

def dotOperator : Production Bool := do
  match ← look (·.kindAt 1) with
  | .ident => andGoOn memberOperator
  | .star => andGoOn (dereferenceOperator 2)
  | .lBrace => andGoOn (typedLiteral .structLiteral structEntries)
  | .lBracket => andGoOn (typedLiteral .arrayLiteral arrayEntries)
  | _ => pure false

/-- A postfix operator; yields whether there is one. A star dereferences if no operand follows. -/
def postfixOperator : Production Bool := do
  match ← look (·.kind) with
  | .lParen => andGoOn callOperator
  | .lBracket => andGoOn indexOperator
  | .dot => dotOperator
  | .star =>
      if ← look (·.canStartOperandAt 1) then pure false else andGoOn (dereferenceOperator 1)
  | _ => pure false

def postfixExpression : Production Operand :=
  marked (do
    let kind ← primary
    if kind == .isOpen then repeatedly postfixOperator
    pure kind)

/-! ### Unary operators -/

def prefixedOperand (kind : NodeKind) : Production Unit :=
  node kind (do
    bump
    operand Prec.unary)

def unaryOperator : Production Unit :=
  node .unaryExpression (do
    bumpTagged .operator
    operand Prec.unary
    tag .argument)

def pointerOperator : Production Unit :=
  node .pointerExpression (do
    bump
    operand Prec.unary
    tag .argument)

def castModifiers : Production Unit :=
  asLongAs (fun view => view.isAt .comma && view.kindAt 1 == .ident) (do
    bump
    bumpTagged .modifier)

def castValue : Production Unit := do
  operand Prec.cast
  tag .value

def cast : Production Unit :=
  node .castExpression (do
    bumpKeyword
    castModifiers
    expect .lParen
    fresh type
    tag .type
    expect .rParen
    castValue)

def automaticCast : Production Unit :=
  node .castExpression (do
    bumpKeyword
    castModifiers
    castValue)

def unaryExpression : Production Operand := do
  match ← look (·.kind) with
  | .plus | .minus | .bang | .tilde | .amp => openOperand unaryOperator
  | .star => openOperand (prefixedOperand .address)
  | .shl => openOperand pointerOperator
  | _ =>
      if ← look (·.isAtCast) then openOperand cast
      else if ← look (·.isAtAutomaticCast) then openOperand automaticCast
      else postfixExpression

/-! ### Binary operators -/

def rangeOperator : Production Unit := do
  tag .rangeFrom
  wrap .range (do
    bump
    operand (Prec.tighter Prec.range)
    tag .rangeTo)

def binaryOperatorOf (prec : Prec) : Production Unit := do
  tag .left
  wrap .binaryExpression (do
    bumpTagged .operator
    operand (Prec.tighter prec)
    tag .right)

/-- The precedence of the binary operator at the current token, if it binds at least as tight as
`least` and does not end a condition. -/
def operatorAt? (least : Prec) (view : View) : Option Prec :=
  match binaryOperator? view.kind with
  | none => none
  | some found =>
      if found.prec < least || (view.context.inCondition && view.isAtCases) then none
      else some found.prec

/-- A binary operator that binds at least as tight as `least`; yields whether there is one and another
may follow. Ranges do not chain. -/
def binaryOperatorStep (least : Prec) : Production Bool := do
  if ← check .dotDot then
    if least ≤ Prec.range then rangeOperator
    pure false
  else
    match ← look (operatorAt? least) with
    | none => pure false
    | some prec => andGoOn (binaryOperatorOf prec)

def expressionEntry (least : Prec) : Production Unit :=
  marked (do
    if (← unaryExpression) == .isOpen then repeatedly (binaryOperatorStep least))

end Production

end JaiSyntax
