import SharpLexer.Binary64.Shortest
import SharpLexer.Position
import SharpLexer.Text.Quoted
import SharpLexer.Token.Kind

/-!
# Tokens

A token is a kind, the text it was read from, the place of its first
character and, for a number, its value.  `Token.render` is the one line
form in which tokens are listed.
-/

namespace SharpLexer

/-- The value of a number token. -/
inductive Literal where
  | int (value : Int64)
  | float (value : Binary64)
  deriving DecidableEq

namespace Literal

/-- The field that shows the value in a listing. -/
def render : Literal → String
  | int value => "int_val=" ++ value.toInt.repr
  | float value => "float_val=" ++ value.render

/-- Equality of values.  An integer never equals a float. -/
def equals : Literal → Literal → Bool
  | int a, int b => a = b
  | float a, float b => a.equals b
  | _, _ => false

end Literal

/-- A token of a text. -/
structure Token where
  kind : Kind
  lexeme : String
  position : Position
  literal? : Option Literal
  deriving DecidableEq

namespace Token

/-- A token without a value. -/
def plain (kind : Kind) (lexeme : List Char) (position : Position) : Token :=
  ⟨kind, String.ofList lexeme, position, none⟩

/-- The mark at the end of a text. -/
def eof (position : Position) : Token := plain .eof [] position

/-- A number with its value. -/
def number (lexeme : List Char) (position : Position) (value : Literal) : Token :=
  ⟨.number, String.ofList lexeme, position, some value⟩

/-- The mark at the end of a text ends every reading. -/
def isEof (token : Token) : Bool := token.kind = .eof

/-- A token whose kind is among the given ones. -/
def isOneOf (token : Token) (kinds : List Kind) : Bool := kinds.contains token.kind

/-- Equality of tokens, with floats compared as numbers. -/
def equals (a b : Token) : Bool :=
  a.kind = b.kind && a.lexeme = b.lexeme && a.position = b.position &&
    match a.literal?, b.literal? with
    | some x, some y => x.equals y
    | none, none => true
    | _, _ => false

/-- A token on one line. -/
def render (token : Token) : String :=
  "Token(kind=" ++ token.kind.name ++
    ", lexeme=" ++ Text.quoteText token.lexeme ++
    ", line=" ++ token.position.line.repr ++
    ", column=" ++ token.position.column.repr ++
    (match token.literal? with
      | some value => ", " ++ value.render
      | none => "") ++ ")"

end Token

end SharpLexer
