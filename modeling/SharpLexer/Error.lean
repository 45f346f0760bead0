import SharpLexer.Position
import SharpLexer.Text.Quoted

/-!
# Lexical errors

A fault is what is wrong with a text, and an error is a fault at a place.
Each fault has a name, a description and, where there is something to
suggest, a tip.
-/

namespace SharpLexer

/-- What can be wrong with a text. -/
inductive Fault where
  /-- The text holds nothing but blanks. -/
  | emptyInput
  /-- A number has more than one decimal point. -/
  | malformedNumber (literal : String)
  /-- A number is too great for its type. -/
  | numberOutOfRange (literal : String)
  /-- A string has no closing quote. -/
  | unterminatedString (quote : Char)
  /-- A block comment has no closing mark. -/
  | unterminatedComment
  /-- A character starts no token. -/
  | unrecognizedCharacter (character : Char)
  deriving DecidableEq

namespace Fault

/-- The name under which a fault is reported. -/
def name : Fault → String
  | emptyInput => "EmptyInput"
  | malformedNumber _ => "InvalidNumberFormat"
  | numberOutOfRange _ => "NumberParseError"
  | unterminatedString _ => "UnterminatedString"
  | unterminatedComment => "UnterminatedComment"
  | unrecognizedCharacter _ => "UnrecognizedCharacter"

/-- A description of a fault, without its place. -/
def describe : Fault → String
  | emptyInput => "input source cannot be empty"
  | malformedNumber literal => "invalid number format: " ++ Text.quoteText literal
  | numberOutOfRange literal => "error parsing number: " ++ Text.quoteText literal
  | unterminatedString quote =>
    "unterminated string literal opened with " ++ Text.quoteChar quote
  | unterminatedComment => "unterminated block comment"
  | unrecognizedCharacter character =>
    "unrecognized character: " ++ Text.quoteChar character

/-- A suggestion for the author of the text. -/
def tip? : Fault → Option String
  | emptyInput => none
  | malformedNumber literal =>
    some ("Invalid number: `" ++ literal ++ "`, a number may contain at most one decimal point")
  | numberOutOfRange literal =>
    some ("Invalid number: `" ++ literal ++ "`, is it above the integer limit?")
  | unterminatedString quote =>
    some ("String literal is never closed, did you miss a closing `" ++ quote.toString ++ "`?")
  | unterminatedComment => some "Block comment is never closed with `*/`"
  | unrecognizedCharacter _ => none

end Fault

/-- A fault at a place. -/
structure Error where
  fault : Fault
  position : Position
  deriving DecidableEq

/-- The description of an error with its place. -/
def Error.message (error : Error) : String :=
  error.fault.describe ++ " at " ++ error.position.render

end SharpLexer
