/-!
Where the grammar stands. The same tokens read differently in a type, in the condition of an `if`,
and inside a list of arguments.
-/

set_option autoImplicit false

namespace JaiSyntax

/-- A set of context flags. In a type, a parameter list is a procedure type and takes no body. In a
condition, `==` before a brace ends the condition. Among arguments, procedure results stop at a
comma. -/
structure Context where
  inType : Bool
  inCondition : Bool
  inArguments : Bool
  deriving DecidableEq, Inhabited

namespace Context

def none : Context := ⟨false, false, false⟩

def type : Context := ⟨true, false, false⟩

def condition : Context := ⟨false, true, false⟩

def arguments : Context := ⟨false, false, true⟩

def including (context flags : Context) : Context :=
  ⟨context.inType || flags.inType, context.inCondition || flags.inCondition,
   context.inArguments || flags.inArguments⟩

def excluding (context flags : Context) : Context :=
  ⟨context.inType && !flags.inType, context.inCondition && !flags.inCondition,
   context.inArguments && !flags.inArguments⟩

def overlaps (context flags : Context) : Bool :=
  (context.inType && flags.inType) || (context.inCondition && flags.inCondition)
    || (context.inArguments && flags.inArguments)

end Context

end JaiSyntax
