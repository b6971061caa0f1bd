import JaiSyntax.Production.Basic
/-!
Statements where they stand: in a list, under another statement, and in a block. A statement of the
semicolon class needs its semicolon; one that fails becomes an error node of its own.
-/

set_option autoImplicit false

namespace JaiSyntax.Production

/-- The semicolon after a statement of `kind`, if it needs one. A missing one is reported, unless the
statement ends with an invalid token, which was reported before. -/
def terminator (kind : NodeKind) : Production Unit :=
  match terminatorOf kind with
  | .selfTerminated => pure ()
  | .semicolon => do
      unless ← eat .semicolon do
        onlyIf (fun view => view.previous != .error) (act (.report (.missingTerminator kind)))

/-- A statement inside another construct, recorded under `field`, with its terminator. A lone
semicolon is an empty statement. -/
def substatement (field : Option Field) : Production Unit := do
  unless ← eat .semicolon do
    enter .statement
    let kind ← look (·.lastNode)
    if let some role := field then tag role
    if let some found := kind then terminator found

def listedStatement : Production Unit := do
  unless ← eat .semicolon do guarded (substatement none)

def statementList : Production Unit := upTo .rBrace listedStatement

/-- Statements in braces. The context around a block does not reach into it. -/
def block : Production Unit :=
  node .block (opened (do
    expect .lBrace
    fresh statementList
    closeBrace))

def bodyBlock : Production Unit := do
  block
  tag .body

end JaiSyntax.Production
