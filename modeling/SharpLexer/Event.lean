import SharpLexer.Token.Basic

/-!
# The account of a run

A reader reports what it does as it goes along: a text is opened, a
comment is skipped, a character is not understood, a token is produced.
Each event has a level of importance and a message.
-/

namespace SharpLexer

/-- How important an event is, the most important first. -/
inductive Level where
  | error | warn | info | debug | trace
  deriving DecidableEq

namespace Level

/-- The name of a level. -/
def name : Level → String
  | error => "ERROR"
  | warn => "WARN"
  | info => "INFO"
  | debug => "DEBUG"
  | trace => "TRACE"

/-- Every level, the most important first. -/
def all : List Level := [error, warn, info, debug, trace]

/-- The number of levels that are more important. -/
def rank : Level → Nat
  | error => 0
  | warn => 1
  | info => 2
  | debug => 3
  | trace => 4

end Level

/-- Something that a reader reports. -/
inductive Event where
  /-- A text of the given length was opened. -/
  | opened (length : Nat)
  /-- A line comment was skipped, and the reader stands on the given line. -/
  | skippedLine (line : Nat)
  /-- The block comment that starts at the given place was skipped. -/
  | skippedBlock (start : Position)
  /-- A character that starts no token was met. -/
  | unrecognized (character : Char) (position : Position)
  /-- A token was produced. -/
  | produced (token : Token)
  deriving DecidableEq

namespace Event

/-- The level of an event. -/
def level : Event → Level
  | opened _ => .debug
  | skippedLine _ => .trace
  | skippedBlock _ => .trace
  | unrecognized _ _ => .warn
  | produced _ => .trace

/-- The message of an event.  A null character is named rather than
shown. -/
def message : Event → String
  | opened length => "created lexer over " ++ length.repr ++ " characters"
  | skippedLine line => "skipped line comment ending on line " ++ line.repr
  | skippedBlock start => "skipped block comment starting at " ++ start.render
  | unrecognized character position =>
    if character = '\x00' then "NUL character in source at " ++ position.render
    else "unrecognized character " ++ Text.quoteChar character ++ " at " ++ position.render
  | produced token => token.render

end Event

end SharpLexer
