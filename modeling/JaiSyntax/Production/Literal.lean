import JaiSyntax.Production.Basic
/-!
String literals. The pieces of a literal are tokens already, so a production only gathers them.
-/

set_option autoImplicit false

namespace JaiSyntax.Production

def stringBody : Production Unit := do
  if ← check .quote then bump else refuse (.expected .stringLiteral)
  asLongAs (fun view => view.isAt .stringContent || view.isAt .escapeSequence) bump
  expect .quote

/-- A character literal: a directive and a string. -/
def characterLiteral : Production Unit :=
  node .string (do
    bumpTagged .modifier
    stringBody)

def stringLiteral : Production Unit := do
  if ← checkDirective ["#char"] then characterLiteral else node .string stringBody

/-- A heredoc. Its delimiter or its end may be missing, and then the body is a single error token. -/
def heredoc : Production Unit :=
  node .heredocString (do
    bump
    if ← eat .heredocStart then
      discard (eat .heredocBody)
      unless ← eat .heredocEnd do discard (eat .error))

end JaiSyntax.Production
