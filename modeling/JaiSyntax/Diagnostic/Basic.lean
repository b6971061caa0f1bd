import JaiSyntax.Span
import JaiSyntax.Diagnostic.Code
/-!
Diagnostics: a syntax problem in printable form, with labels on the source, notes and fix hints. The
plain form is one headline and one indented line for each label, note and hint.
-/

set_option autoImplicit false

namespace JaiSyntax

inductive Severity where
  | error | warning | note
  deriving DecidableEq, Inhabited

namespace Severity

def name : Severity → String
  | .error => "error"
  | .warning => "warning"
  | .note => "note"

end Severity

/-- A source range with a short message. A primary label marks the offending text, any other label
something it relates to. -/
structure Label where
  span : Span
  message : String
  isPrimary : Bool
  deriving DecidableEq, Inhabited

namespace Label

/-- The line of a label: `at` for the offending text and `see` for the rest. -/
def line (label : Label) : String :=
  (if label.isPrimary then "at " else "see ") ++ label.span.render ++ ": " ++ label.message

end Label

structure Diagnostic where
  code : ErrorCode
  severity : Severity
  message : String
  labels : List Label
  notes : List String
  hints : List String
  deriving DecidableEq, Inhabited

namespace Diagnostic

/-- A diagnostic with nothing but a code; its message is the description of the code. -/
def ofCode (code : ErrorCode) (severity : Severity) : Diagnostic :=
  ⟨code, severity, code.description, [], [], []⟩

def category (diagnostic : Diagnostic) : ErrorCategory := diagnostic.code.category

def primarySpan? (diagnostic : Diagnostic) : Option Span :=
  (diagnostic.labels.find? Label.isPrimary).map Label.span

def isError (diagnostic : Diagnostic) : Bool := diagnostic.severity == .error

def headline (diagnostic : Diagnostic) : String :=
  diagnostic.severity.name ++ "[" ++ diagnostic.code.render ++ "]: " ++ diagnostic.message

/-- The lines below the headline, without their indentation: labels, then notes, then hints. -/
def details (diagnostic : Diagnostic) : List String :=
  diagnostic.labels.map Label.line
    ++ diagnostic.notes.map (fun note => "note: " ++ note)
    ++ diagnostic.hints.map (fun hint => "help: " ++ hint)

/-- The plain form, without a final line break. -/
def render (diagnostic : Diagnostic) : String :=
  String.join (diagnostic.headline :: diagnostic.details.map (fun line => "\n    " ++ line))

end Diagnostic

def renderDiagnostics (diagnostics : List Diagnostic) : String :=
  String.join (diagnostics.map (fun diagnostic => diagnostic.render ++ "\n"))

/-- `count` and a noun, in the plural unless there is exactly one. -/
def counted (count : Nat) (noun : String) : String :=
  toString count ++ " " ++ noun ++ (if count == 1 then "" else "s")

/-- The closing line of a run: how many errors and warnings there were, and no line without any. -/
def renderSummary (errors warnings : Nat) : String :=
  match errors, warnings with
  | 0, 0 => ""
  | errors, 0 => counted errors "error" ++ "\n"
  | 0, warnings => counted warnings "warning" ++ "\n"
  | errors, warnings => counted errors "error" ++ ", " ++ counted warnings "warning" ++ "\n"

end JaiSyntax
