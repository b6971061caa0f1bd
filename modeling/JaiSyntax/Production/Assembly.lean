import JaiSyntax.Production.Basic
/-!
Inline assembly. A line declares a register or holds an instruction, and ends with a semicolon or the
closing brace. A line that fails becomes an error node of its own.
-/

set_option autoImplicit false

namespace JaiSyntax.Production

/-- The declaration of a register with its class, and the register it is bound to. -/
def assemblyDeclaration : Production Unit :=
  node .asmDeclaration (do
    bumpTagged .name
    bump
    expectName .type
    if ← eat .tripleEq then expectName .register)

/-- An operand of an instruction: an expression, or one in brackets that addresses memory. -/
def assemblyOperand : Production Unit := do
  if ← check .lBracket then
    node .asmMemoryOperand (do
      bump
      expression
      expect .rBracket)
  else expression
  tag .operand

def assemblyInstruction : Production Unit :=
  node .asmInstruction (do
    bumpTagged .mnemonic
    onlyIf (fun view => view.isAt .dot && view.kindAt 1 == .ident) (do
      bump
      bumpTagged .size)
    onlyIf (fun view => !view.isAt .semicolon && !view.isAt .rBrace)
      (commaSeparated assemblyOperand))

/-- A line with its semicolon. A missing one is reported. -/
def assemblyLine : Production Unit := do
  if ← check .ident then
    if ← look (·.isNameBefore .colon) then assemblyDeclaration else assemblyInstruction
  else refuse (.expected .assemblyLine)
  unless ← eat .semicolon do
    onlyIf (fun view => !view.isAt .rBrace) (act (.report .missingAfterAssemblyLine))

def instructionSets : Production Unit :=
  repeatedly (do
    if ← check .ident then
      bumpTagged .modifier
      eat .comma
    else pure false)

def assembly : Production Unit :=
  node .asmStatement (do
    bump
    instructionSets
    opened (do
      expect .lBrace
      fresh (upToSkipping .rBrace .semicolon (guarded assemblyLine))
      closeBrace))

end JaiSyntax.Production
