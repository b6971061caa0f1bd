import JaiSyntax.Command.Report
/-!
A run of the command line. The words say what is wanted; the files that they name are read before, so
that the answer is a function of the words and the contents. Files are reported in the order they are
given, and one that cannot be read stops no other one.
-/

set_option autoImplicit false

namespace JaiSyntax

/-- Why a file cannot be read: the reason and the number of the system's error. -/
structure ReadError where
  reason : String
  number : Nat
  deriving DecidableEq

namespace ReadError

def notFound : ReadError := ⟨"No such file or directory", 2⟩

def permissionDenied : ReadError := ⟨"Permission denied", 13⟩

def isDirectory : ReadError := ⟨"Is a directory", 21⟩

def message (error : ReadError) : String :=
  error.reason ++ " (os error " ++ toString error.number ++ ")"

end ReadError

structure InputFile where
  path : String
  contents : Except ReadError (List UInt8)

structure Answer where
  output : String
  errorOutput : String
  status : Nat
  deriving DecidableEq

namespace Answer

def printing (text : String) : Answer := ⟨text, "", 0⟩

def refusal (error : UsageError) : Answer :=
  ⟨"", "error: " ++ error.message ++ "\n\nRun `jaic help` for usage.\n", 2⟩

end Answer

inductive Request where
  | usage
  | version
  /-- Explain the error code with a given text; without a text nothing can be explained. -/
  | explain (code : Option String)
  | process (options : Options)
  | refused (error : UsageError)

namespace Request

def ofArguments (arguments : List String) : Request :=
  match arguments with
  | [] => .usage
  | first :: rest =>
      match first with
      | "help" | "--help" | "-h" => .usage
      | "version" | "--version" | "-V" => .version
      | "explain" | "--explain" => .explain rest.head?
      | _ =>
          match Options.ofArguments arguments with
          | .ok options => .process options
          | .error error => .refused error

def files : Request → List String
  | .process options => options.files
  | _ => []

end Request

def usageLines : List String :=
  ["jaic: Jai syntax engine",
   "",
   "Usage: jaic <command> [options] <files...>",
   "",
   "Commands:",
   "  parse <files...>     Print the syntax tree of each file",
   "  lex <files...>       Print the token stream of each file",
   "  check <files...>     Report syntax errors only",
   "  explain <code>       Describe an error code (e.g., E1008)",
   "  help                 Show this help message",
   "",
   "Options:",
   "  --format <fmt>       sexp (default), json or tokens",
   "  --max-errors <n>     Report at most n errors per file",
   "  --no-resync          Only resynchronize at `;` and `\x7d` after an error",
   "  --plain              One-line diagnostics without source snippets",
   "  -q, --quiet          No tree output or per-file status",
   "  -v, --verbose        Debug logging as an indented span tree",
   "",
   "Use `-` to read from standard input. Set JAI_LOG to filter log output",
   "(e.g., JAI_LOG=jai_parse=trace)."]

def textOfLines (lines : List String) : String := String.join (lines.map (fun line => line ++ "\n"))

def versionLines : List String := ["jaic 0.1.0"]

def explainUsageLines : List String :=
  ["Usage: jaic explain <ERROR_CODE>", "Example: jaic explain E1008"]

def explain (text : String) : Except UsageError String :=
  match ErrorCode.ofText? text with
  | some code => .ok code.explanation
  | none => .error (.unknownCode text)

/-! ### Files -/

inductive FileError where
  | unreadable (path : String) (error : ReadError)
  | noSource (path : String) (error : InputError)
  deriving DecidableEq

namespace FileError

def message : FileError → String
  | .unreadable path error => "cannot read " ++ path ++ ": " ++ error.message
  | .noSource path error => path ++ ": " ++ error.message

def line (error : FileError) : String := "error: " ++ error.message ++ "\n"

end FileError

def Options.report (options : Options) (file : InputFile) : Except FileError Report :=
  match file.contents with
  | .error error => .error (.unreadable file.path error)
  | .ok bytes =>
      match sourceOfBytes bytes with
      | .error error => .error (.noSource file.path error)
      | .ok source => .ok (options.process file.path source)

/-- The totals of a run: how many syntax errors were found and how many files have no report. -/
structure Totals where
  errors : Nat
  failures : Nat
  deriving DecidableEq

namespace Totals

def including (totals : Totals) : Except FileError Report → Totals
  | .ok report => { totals with errors := totals.errors + report.errors.length }
  | .error _ => { totals with failures := totals.failures + 1 }

def ofReports (reports : List (Except FileError Report)) : Totals :=
  reports.foldl including ⟨0, 0⟩

/-- A file without a report weighs more than a syntax error. -/
def status (totals : Totals) : Nat :=
  if totals.failures > 0 then 3 else if totals.errors > 0 then 1 else 0

end Totals

namespace Options

def outputOf (options : Options) : Except FileError Report → String
  | .error _ => ""
  | .ok report =>
      report.output
        ++ (if options.command == .check && !options.quiet then report.statusLine else "")

def errorOutputOf : Except FileError Report → String
  | .error error => error.line
  | .ok report => report.diagnosticsText

def run (options : Options) (files : List InputFile) : Answer :=
  let reports := files.map options.report
  let totals := Totals.ofReports reports
  { output := String.join (reports.map options.outputOf)
    errorOutput :=
      String.join (reports.map errorOutputOf)
        ++ (if options.quiet then "" else renderSummary totals.errors 0)
    status := totals.status }

end Options

namespace Request

/-- The answer to a request; `files` are the files that it needs. -/
def answer (files : List InputFile) : Request → Answer
  | .usage => .printing (textOfLines usageLines)
  | .version => .printing (textOfLines versionLines)
  | .explain none => ⟨"", textOfLines explainUsageLines, 2⟩
  | .explain (some text) =>
      match JaiSyntax.explain text with
      | .ok line => .printing (line ++ "\n")
      | .error error => .refusal error
  | .process options => options.run files
  | .refused error => .refusal error

end Request

end JaiSyntax
