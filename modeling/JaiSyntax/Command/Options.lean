import JaiSyntax.Parse
/-!
The words of a command line. After the command come flags and file names in any order; a flag with a
value has it in the same word or in the next one. The first word that is wrong decides the error.
-/

set_option autoImplicit false

namespace JaiSyntax

inductive Command where
  /-- Print the tree. -/
  | parse
  /-- Print the tokens. -/
  | lex
  /-- Report errors only. -/
  | check
  deriving DecidableEq

namespace Command

def name : Command → String
  | .parse => "parse"
  | .lex => "lex"
  | .check => "check"

def ofName? (name : String) : Option Command :=
  [parse, lex, check].find? (fun command => command.name == name)

end Command

inductive OutputFormat where
  | sexp | json | tokens
  deriving DecidableEq

namespace OutputFormat

def name : OutputFormat → String
  | .sexp => "sexp"
  | .json => "json"
  | .tokens => "tokens"

def ofName? (name : String) : Option OutputFormat :=
  [sexp, json, tokens].find? (fun format => format.name == name)

end OutputFormat

inductive UsageError where
  | missingCommand
  | unknownCommand (name : String)
  | unknownFlag (flag : String)
  | unknownFormat (name : String)
  | missingValue (flag : String)
  | notANumber (value : String)
  | noFiles
  | unknownCode (text : String)
  deriving DecidableEq

namespace UsageError

def message : UsageError → String
  | .missingCommand => "missing command"
  | .unknownCommand name => "unknown command `" ++ name ++ "`"
  | .unknownFlag flag => "unknown flag `" ++ flag ++ "`"
  | .unknownFormat name =>
      "unknown format `" ++ name ++ "` (expected sexp, json or tokens)"
  | .missingValue flag => "`" ++ flag ++ "` needs a value"
  | .notANumber value => "`" ++ value ++ "` is not a number"
  | .noFiles => "no input files"
  | .unknownCode text => "unknown error code `" ++ text ++ "`"

end UsageError

structure Options where
  command : Command
  format : OutputFormat
  /-- Neither output nor the status of each file is printed. -/
  quiet : Bool
  verbose : Bool
  /-- Diagnostics are printed without parts of the source. -/
  plain : Bool
  parse : ParseOptions
  files : List String

/-- What a single word says on its own. -/
inductive Word where
  | quiet | verbose | plain | noResync
  | format (value : Option String)
  | maxErrors (value : Option String)
  | file (name : String)
  | unknown (flag : String)
  deriving DecidableEq

def afterBeginning? (beginning word : String) : Option String :=
  if beginning.toList.isPrefixOf word.toList then
    some (String.ofList (word.toList.drop beginning.length))
  else none

namespace Word

/-- Read a word. A single dash is the name of the standard input. -/
def ofString (word : String) : Word :=
  match word with
  | "-q" | "--quiet" => .quiet
  | "-v" | "--verbose" => .verbose
  | "--plain" => .plain
  | "--no-resync" => .noResync
  | "--format" => .format none
  | "--max-errors" => .maxErrors none
  | other =>
      match afterBeginning? "--format=" other, afterBeginning? "--max-errors=" other with
      | some value, _ => .format (some value)
      | none, some value => .maxErrors (some value)
      | none, none =>
          if other.toList.head? == some '-' && other != "-" then .unknown other else .file other

end Word

/-- The greatest count that fits 64 bits. -/
def maxCount : Nat := 0xFFFFFFFFFFFFFFFF

def decimalValue (digits : List Char) : Nat :=
  digits.foldl (fun value digit => value * 10 + (digit.toNat - '0'.toNat)) 0

/-- A count: decimal digits after an optional plus sign, 64 bits at most. -/
def count? (text : String) : Option Nat :=
  let digits :=
    match text.toList with
    | '+' :: rest => rest
    | characters => characters
  if !digits.isEmpty && digits.all Char.isDigit && decimalValue digits ≤ maxCount then
    some (decimalValue digits)
  else none

namespace Options

def ofCommand (command : Command) : Options := ⟨command, .sexp, false, false, false, {}, []⟩

def setFormat (options : Options) (value : String) : Except UsageError Options :=
  match OutputFormat.ofName? value with
  | some format => .ok { options with format := format }
  | none => .error (.unknownFormat value)

def setMaxErrors (options : Options) (value : String) : Except UsageError Options :=
  match count? value with
  | some count => .ok { options with parse := { options.parse with maxErrors := some count } }
  | none => .error (.notANumber value)

/-- Read the words after the command. Files are kept in their order, and the last value of an option
counts. -/
def readWords : Options → List String → Except UsageError Options
  | options, [] => .ok options
  | options, word :: rest =>
      match Word.ofString word with
      | .quiet => readWords { options with quiet := true } rest
      | .verbose => readWords { options with verbose := true } rest
      | .plain => readWords { options with plain := true } rest
      | .noResync =>
          readWords
            { options with parse := { options.parse with resyncOnDeclaration := false } } rest
      | .format (some value) => do readWords (← options.setFormat value) rest
      | .maxErrors (some value) => do readWords (← options.setMaxErrors value) rest
      | .format none =>
          match rest with
          | [] => .error (.missingValue word)
          | value :: later => do readWords (← options.setFormat value) later
      | .maxErrors none =>
          match rest with
          | [] => .error (.missingValue word)
          | value :: later => do readWords (← options.setMaxErrors value) later
      | .file name => readWords { options with files := options.files ++ [name] } rest
      | .unknown flag => .error (.unknownFlag flag)

/-- Tokens have no symbolic expression: the default form of their output is a list. -/
def settleFormat (options : Options) : Options :=
  if options.command == .lex && options.format == .sexp then { options with format := .tokens }
  else options

def ofArguments : List String → Except UsageError Options
  | [] => .error .missingCommand
  | name :: rest =>
      match Command.ofName? name with
      | none => .error (.unknownCommand name)
      | some command => do
          let options ← (ofCommand command).readWords rest
          if options.files.isEmpty then .error .noFiles else .ok options.settleFormat

end Options

end JaiSyntax
