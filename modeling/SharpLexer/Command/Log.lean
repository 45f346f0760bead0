import SharpLexer.Event

/-!
# The log of a run

Events are logged as lines, each with its level and the part of the
program that it comes from.  A threshold decides which of them are shown.
-/

namespace SharpLexer.Command

/-- The least important level that is shown, or nothing to show none. -/
abbrev Threshold := Option Level

namespace Threshold

/-- A level passes if it is at least as important as the threshold. -/
def passes (threshold : Threshold) (level : Level) : Bool :=
  match threshold with
  | some least => level.rank ≤ least.rank
  | none => false

/-- The threshold with the given name, in whatever case. -/
def ofName? (name : String) : Option Threshold :=
  let upper := String.ofList (name.toList.map Char.toUpper)
  if upper = "OFF" then some none
  else (Level.all.find? (·.name = upper)).map some

/-- The threshold of a run.  A named threshold comes before the verbose
flag, and a name that is none counts for nothing. -/
def choose (named : Option String) (verbose : Bool) : Threshold :=
  (named.bind ofName?).getD (some (if verbose then .debug else .warn))

end Threshold

/-- A part of the program that writes to the log. -/
inductive Source where
  | command | lexer
  deriving DecidableEq

/-- The name of a part in the log. -/
def Source.name : Source → String
  | command => "cslex"
  | lexer => "cslex::lexer::lexer"

/-- The name of a level, filled up to the longest of them. -/
def column (level : Level) : String :=
  String.ofList (level.name.toList ++ List.replicate (5 - level.name.length) ' ')

/-- A message whose further lines are indented under the first. -/
def hanging (message : String) : String :=
  String.ofList (message.toList.flatMap fun c => if c = '\n' then '\n' :: "    ".toList else [c])

/-- A line of the log, or nothing if the level does not pass. -/
def logLine (threshold : Threshold) (source : Source) (level : Level) (message : String) :
    String :=
  if threshold.passes level then
    "[" ++ column level ++ " " ++ source.name ++ "] " ++ hanging message ++ "\n"
  else ""

/-- The lines of the log for some events. -/
def logEvents (threshold : Threshold) (events : List Event) : String :=
  String.join (events.map fun event => logLine threshold .lexer event.level event.message)

end SharpLexer.Command
