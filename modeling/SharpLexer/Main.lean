import SharpLexer.Command.Run

/-!
# The command

Reads the arguments, the environment and the file, and writes the two
streams.
-/

namespace SharpLexer.Command

/-- Reads a file as text. -/
def readSource (file : String) : IO (Except ReadFailure String) := do
  try
    return decode (← IO.FS.readBinFile file)
  catch error =>
    match error with
    | .noFileOrDirectory .. => return .error .missing
    | .inappropriateType .. => return .error .directory
    | .permissionDenied .. => return .error .denied
    | other => return .error (.other (toString other))

/-- Carries out what a command line asks for. -/
def perform (arguments : List String) : IO Result := do
  match plan (← IO.getEnv "CSLEX_VERBOSE") (← IO.getEnv "RUST_LOG") arguments with
  | .settled result => return result
  | .list threshold file => return listFile threshold file (← readSource file)

end SharpLexer.Command

/-- Runs the command. -/
def main (arguments : List String) : IO UInt32 := do
  let result ← SharpLexer.Command.perform arguments
  IO.print result.stdout
  IO.eprint result.stderr
  return result.exit.toUInt32
