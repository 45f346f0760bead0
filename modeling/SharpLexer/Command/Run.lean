import SharpLexer.Command.Log
import SharpLexer.Command.Request
import SharpLexer.Diagnostic
import SharpLexer.Stream

/-!
# Running the command

A run lists the tokens of a file on the standard output, one on a line, up
to the end mark or the first error.  The log and the diagnostic go to the
standard error.
-/

namespace SharpLexer.Command

/-- What a run leaves behind. -/
structure Result where
  exit : Nat
  stdout : String
  stderr : String
  deriving DecidableEq

/-- Why a file could not be read. -/
inductive ReadFailure where
  | notText
  | missing
  | directory
  | denied
  | other (reason : String)
  deriving DecidableEq

/-- The reason as it is logged. -/
def ReadFailure.message : ReadFailure → String
  | notText => "stream did not contain valid UTF-8"
  | missing => "No such file or directory (os error 2)"
  | directory => "Is a directory (os error 21)"
  | denied => "Permission denied (os error 13)"
  | other reason => reason

/-- The text in the bytes of a file. -/
def decode (bytes : ByteArray) : Except ReadFailure String :=
  match String.fromUTF8? bytes with
  | some text => .ok text
  | none => .error .notText

/-- The end of a run that met an error, after what was already written.  A
diagnostic that breaks off takes the run down with it. -/
def fail (error : Error) (source file stdout stderr : String) : Result :=
  let diagnostic := Diagnostic.ofError error source file
  ⟨if diagnostic.complete then 1 else 101, stdout, stderr ++ diagnostic.text⟩

/-- The line that lists a token. -/
def listing : Outcome → String
  | .ok token => token.render ++ "\n"
  | .error _ => ""

/-- The error among some readings.  There is at most one, and it is the
last. -/
def firstError? (readings : List (Reading Outcome)) : Option Error :=
  readings.findSome? fun reading =>
    match reading.value with
    | .ok _ => none
    | .error error => some error

/-- Lists the tokens of a text. -/
def list (threshold : Threshold) (file source : String) : Result :=
  match Cursor.ofSource source with
  | .error error => fail error source file "" ""
  | .ok opened =>
    let readings := opened.cursor.cautious
    let stdout := String.join (readings.map fun reading => listing reading.value)
    let log := logEvents threshold (opened.events ++ readings.flatMap (·.events))
    match firstError? readings with
    | some error => fail error source file stdout log
    | none =>
      let count := (Cursor.outcomes readings).length
      ⟨0, stdout,
        log ++ logLine threshold .command .debug ("Tokenized " ++ count.repr ++ " tokens")⟩

/-- Lists the tokens of a file, given what came of reading it. -/
def listFile (threshold : Threshold) (file : String) : Except ReadFailure String → Result
  | .ok source => list threshold file source
  | .error failure =>
    ⟨1, "", logLine threshold .command .error
      ("failed to read " ++ file ++ ": " ++ failure.message)⟩

/-! ## Texts about the command itself -/

/-- The name and the number of the version. -/
def versionText : String := "cslex 0.1.0\n"

/-- A short manual. -/
def helpText : String :=
  "Dump the tokens of a source file\n\n" ++
  "Usage: cslex [OPTIONS] <FILE>\n\n" ++
  "Arguments:\n" ++
  "  <FILE>  Source file to lex\n\n" ++
  "Options:\n" ++
  "  -v, --verbose  Enable debug logging (RUST_LOG takes precedence) [env: CSLEX_VERBOSE=]\n" ++
  "  -h, --help     Print help\n" ++
  "  -V, --version  Print version\n"

/-- What is wrong with a command line, in words. -/
def UsageError.message : UsageError → String
  | unknownOption argument => "unexpected argument '" ++ argument ++ "' found"
  | repeatedOption argument => "the argument '" ++ argument ++ "' cannot be used multiple times"
  | extraFile argument => "unexpected argument '" ++ argument ++ "' found"
  | emptyFile => "a value is required for '<FILE>' but none was supplied"
  | missingFile => "the following required arguments were not provided:\n  <FILE>"
  | badSwitch value => "invalid value '" ++ value ++ "' for '--verbose'"

/-- The end of a run with a wrong command line. -/
def refuse (error : UsageError) : Result :=
  ⟨2, "", "error: " ++ error.message ++
    "\n\nUsage: cslex [OPTIONS] <FILE>\n\nFor more information, try '--help'.\n"⟩

/-! ## From a command line to a result -/

/-- What is left to do for a command line. -/
inductive Plan where
  /-- Nothing: the result is settled. -/
  | settled (result : Result)
  /-- A file is to be read and its tokens listed. -/
  | list (threshold : Threshold) (file : String)
  deriving DecidableEq

/-- What to do for a command line.  `switch` and `level` are the values
that the environment gives for the verbose flag and for the threshold. -/
def plan (switch level : Option String) (arguments : List String) : Plan :=
  match Request.read switch arguments with
  | .error error => .settled (refuse error)
  | .ok .help => .settled ⟨0, helpText, ""⟩
  | .ok .version => .settled ⟨0, versionText, ""⟩
  | .ok (.list file verbose) => .list (Threshold.choose level verbose) file

end SharpLexer.Command
