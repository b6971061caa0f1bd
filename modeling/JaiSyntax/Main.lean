import JaiSyntax.Command.Run
/-!
The command line: read the files that the words name, and print the answer.
-/

set_option autoImplicit false

namespace JaiSyntax

def readErrorOf (failure : IO.Error) : ReadError :=
  match failure with
  | .noFileOrDirectory _ _ _ => .notFound
  | .permissionDenied _ _ _ => .permissionDenied
  | .inappropriateType _ _ _ => .isDirectory
  | other => ⟨toString other, 5⟩

def readStandardInput : IO ByteArray := do
  let stream ← IO.getStdin
  let mut contents := ByteArray.empty
  repeat
    let chunk ← stream.read 65536
    if chunk.isEmpty then break
    contents := contents ++ chunk
  return contents

/-- Read the file at a path; a single dash is the standard input. -/
def readInputFile (path : String) : IO InputFile := do
  try
    let contents ← if path == "-" then readStandardInput else IO.FS.readBinFile path
    return ⟨path, .ok contents.toList⟩
  catch failure =>
    return ⟨path, .error (readErrorOf failure)⟩

end JaiSyntax

open JaiSyntax in
def main (arguments : List String) : IO UInt32 := do
  let request := Request.ofArguments arguments
  let files ← request.files.mapM readInputFile
  let answer := request.answer files
  (← IO.getStdout).putStr answer.output
  (← IO.getStderr).putStr answer.errorOutput
  return answer.status.toUInt32
