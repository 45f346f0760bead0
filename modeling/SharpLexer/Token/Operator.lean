import SharpLexer.Token.Kind

/-!
# Operators and punctuation

One table lists every operator and punctuation mark with its kind.  The
longest symbols stand first, so the first symbol of the table that begins
a text is the longest that does.
-/

namespace SharpLexer

/-- A symbol and the kind of token that it makes. -/
structure Operator where
  symbol : List Char
  kind : Kind
  deriving DecidableEq

namespace Operator

/-- Every operator and punctuation mark, the longest first. -/
def table : List Operator :=
  [⟨['<', '<', '<'], .shiftLeftAssign⟩, ⟨['>', '>', '>'], .shiftRightAssign⟩,
   ⟨['=', '='], .equal⟩, ⟨['=', '>'], .arrow⟩, ⟨['<', '='], .lessEqual⟩,
   ⟨['<', '<'], .shiftLeft⟩, ⟨['>', '='], .greaterEqual⟩, ⟨['>', '>'], .shiftRight⟩,
   ⟨['&', '&'], .andAnd⟩, ⟨['|', '|'], .orOr⟩, ⟨['+', '+'], .increment⟩,
   ⟨['+', '='], .plusAssign⟩, ⟨['-', '-'], .decrement⟩, ⟨['-', '='], .minusAssign⟩,
   ⟨['!', '='], .notEqual⟩, ⟨[';'], .semicolon⟩, ⟨['('], .leftParen⟩, ⟨[')'], .rightParen⟩,
   ⟨['{'], .leftBrace⟩, ⟨['}'], .rightBrace⟩, ⟨['['], .leftBracket⟩, ⟨[']'], .rightBracket⟩,
   ⟨['#'], .hash⟩, ⟨['*'], .star⟩, ⟨['?'], .question⟩, ⟨['^'], .xor⟩, ⟨[':'], .colon⟩,
   ⟨[','], .comma⟩, ⟨['%'], .percent⟩, ⟨['.'], .dot⟩, ⟨['='], .assign⟩, ⟨['<'], .less⟩,
   ⟨['>'], .greater⟩, ⟨['&'], .ampersand⟩, ⟨['|'], .pipe⟩, ⟨['+'], .plus⟩, ⟨['-'], .minus⟩,
   ⟨['!'], .bang⟩, ⟨['/'], .slash⟩]

/-- The longest operator that begins a text. -/
def find? (text : List Char) : Option Operator :=
  table.find? (·.symbol.isPrefixOf text)

/-- No symbol of the table is empty. -/
theorem symbol_ne_nil : ∀ op ∈ table, op.symbol ≠ [] := by decide

/-- What `find?` answers is in the table and begins the text. -/
theorem find?_eq_some {text : List Char} {op : Operator} (h : find? text = some op) :
    op ∈ table ∧ op.symbol <+: text :=
  ⟨List.mem_of_find?_eq_some h, by simpa using List.find?_some h⟩

end Operator

end SharpLexer
