import SharpLexer.Binary64.Rounding
import SharpLexer.Error
import SharpLexer.Token.Basic

/-!
# Numbers

A number is a digit followed by digits, underscores and decimal points.
Underscores only group the digits.  A number without a point is an
integer, and one with a single point is a float, which is rounded once
from its exact value.  More points make no number.
-/

namespace SharpLexer.Number

/-- A character that goes on with a number. -/
def continues (c : Char) : Bool := c.isDigit || c = '_' || c = '.'

/-- The number that a row of decimal digits stands for. -/
def decimal (digits : List Char) : Nat :=
  digits.foldl (fun n c => 10 * n + (c.toNat - '0'.toNat)) 0

/-- The digits of a literal, without underscores and points. -/
def digits (literal : List Char) : List Char := literal.filter Char.isDigit

/-- The count of digits behind the first point. -/
def places (literal : List Char) : Nat := (digits (literal.dropWhile (· != '.'))).length

/-- The count of decimal points. -/
def points (literal : List Char) : Nat := literal.count '.'

/-- The value of a literal.  An integer is below `2 ^ 63`, and a float is
finite. -/
def read (literal : List Char) : Except Fault Literal :=
  let value := decimal (digits literal)
  if points literal = 0 then
    if value < Nat.pow 2 63 then .ok (.int (Int64.ofNat value))
    else .error (.numberOutOfRange (String.ofList literal))
  else if points literal = 1 then
    let number := Binary64.ofRatio value (Nat.pow 10 (places literal))
    if number.isFinite then .ok (.float number)
    else .error (.numberOutOfRange (String.ofList literal))
  else .error (.malformedNumber (String.ofList literal))

end SharpLexer.Number
