/-!
# What a command line asks for

The arguments are read from left to right.  The first one that cannot be
right, or that asks for the help or the version, settles the matter.  Flags
may be joined behind one dash, and two dashes end the options.
-/

namespace SharpLexer.Command

/-- What a command line asks for. -/
inductive Request where
  | help
  | version
  /-- Lists the tokens of a file, with more of an account if `verbose`. -/
  | list (file : String) (verbose : Bool)
  deriving DecidableEq

/-- What is wrong with a command line. -/
inductive UsageError where
  | unknownOption (argument : String)
  | repeatedOption (argument : String)
  | extraFile (argument : String)
  | emptyFile
  | missingFile
  | badSwitch (value : String)
  deriving DecidableEq

/-- The arguments that were read so far. -/
structure Arguments where
  file? : Option String
  verbose : Bool
  deriving DecidableEq

namespace Arguments

/-- Nothing was read yet. -/
def none : Arguments := ⟨.none, false⟩

/-- Takes an argument for the file. -/
def takeFile (arguments : Arguments) (argument : String) : Except UsageError Arguments :=
  if arguments.file?.isSome then .error (.extraFile argument)
  else if argument.isEmpty then .error .emptyFile
  else .ok { arguments with file? := some argument }

/-- Takes the flag for a longer account, which may be given once. -/
def takeVerbose (arguments : Arguments) (argument : String) : Except UsageError Arguments :=
  if arguments.verbose then .error (.repeatedOption argument)
  else .ok { arguments with verbose := true }

/-- The value of a switch from the environment, which is off if unset. -/
def switch : Option String → Except UsageError Bool
  | .none => .ok false
  | some "true" => .ok true
  | some "false" => .ok false
  | some value => .error (.badSwitch value)

/-- The request that complete arguments make.  The environment is asked
only if the flag was not given. -/
def request (arguments : Arguments) (environment : Option String) :
    Except UsageError Request := do
  let verbose ← if arguments.verbose then .ok true else switch environment
  match arguments.file? with
  | some file => .ok (.list file verbose)
  | .none => .error .missingFile

end Arguments

/-- The options of the command line. -/
inductive Flag where
  | help | version | verbose
  deriving DecidableEq

namespace Flag

/-- The flag with the given letter. -/
def ofLetter? : Char → Option Flag
  | 'h' => some help
  | 'V' => some version
  | 'v' => some verbose
  | _ => none

/-- The flag with the given long spelling. -/
def ofLong? : String → Option Flag
  | "--help" => some help
  | "--version" => some version
  | "--verbose" => some verbose
  | _ => none

end Flag

namespace Request

/-- The flags that an argument spells, or nothing if it is a file.  A flag
of its own has two dashes, and letters may share one. -/
def flags? (argument : String) : Option (List (Option Flag)) :=
  match argument.toList with
  | '-' :: '-' :: _ => some [Flag.ofLong? argument]
  | '-' :: c :: letters => some ((c :: letters).map Flag.ofLetter?)
  | _ => none

/-- Takes flags one by one.  The help and the version settle the request. -/
def takeFlags (argument : String) :
    List (Option Flag) → Arguments → Except UsageError (Arguments ⊕ Request)
  | [], arguments => .ok (.inl arguments)
  | none :: _, _ => .error (.unknownOption argument)
  | some .help :: _, _ => .ok (.inr .help)
  | some .version :: _, _ => .ok (.inr .version)
  | some .verbose :: rest, arguments => do
    takeFlags argument rest (← arguments.takeVerbose argument)

/-- Reads the arguments behind the two dashes that end the options. -/
def readFiles (environment : Option String) (files : List String) (arguments : Arguments) :
    Except UsageError Request := do
  (← files.foldlM Arguments.takeFile arguments).request environment

/-- Reads the arguments, with those in front of them already taken. -/
def readFrom (environment : Option String) :
    List String → Arguments → Except UsageError Request
  | [], arguments => arguments.request environment
  | "--" :: files, arguments => readFiles environment files arguments
  | argument :: rest, arguments =>
    match flags? argument with
    | none => do readFrom environment rest (← arguments.takeFile argument)
    | some flags => do
      match ← takeFlags argument flags arguments with
      | .inl arguments => readFrom environment rest arguments
      | .inr request => .ok request

/-- The request that a command line makes.  `environment` is the value of
the switch that stands in for the verbose flag. -/
def read (environment : Option String) (arguments : List String) : Except UsageError Request :=
  readFrom environment arguments Arguments.none

end Request

end SharpLexer.Command
