/-!
# Kinds of tokens

The kinds fall into five groups: two marks, punctuation, words and
literals, operators, and keywords.  Every kind has one name, and a name
belongs to one kind.
-/

namespace SharpLexer

/-- The class that a token belongs to.  `eof` marks the end of the text,
and `stray` a character that starts no token. -/
inductive Kind where
  | eof | stray
  | semicolon | leftParen | rightParen | leftBrace | rightBrace | leftBracket | rightBracket
  | hash | colon | comma | dot | question
  | typeWord | identifier | docComment | stringLiteral | number | truth
  | assign | equal | arrow | less | lessEqual | shiftLeft | shiftLeftAssign | greater
  | greaterEqual | shiftRight | shiftRightAssign | ampersand | andAnd | pipe | orOr | xor | plus
  | increment | plusAssign | minus | decrement | minusAssign | star | slash | percent | bang
  | notEqual
  | kwIf | kwDo | kwWhile | kwReturn | kwElse | kwCall | kwImport | kwAs | kwIn | kwScatter
  | kwDefault | kwSwitch | kwCase | kwBreak | kwContinue | kwThrow | kwCatch | kwFinally | kwTry
  | kwVar | kwConst | kwUsing | kwNamespace | kwStatic | kwVoid | kwVirtual | kwReadonly
  | kwOverride | kwNew | kwPublic | kwPrivate | kwProtected | kwInternal | kwAbstract | kwSealed
  | kwAsync | kwAwait | kwGet | kwSet | kwThis
  deriving DecidableEq

namespace Kind

/-- The name under which a kind is shown. -/
def name : Kind → String
  | .eof => "EOF"
  | .stray => "Error"
  | .semicolon => "Semicolon"
  | .leftParen => "LParen"
  | .rightParen => "RParen"
  | .leftBrace => "LCurly"
  | .rightBrace => "RCurly"
  | .leftBracket => "LSquare"
  | .rightBracket => "RSquare"
  | .hash => "Hash"
  | .colon => "Colon"
  | .comma => "Comma"
  | .dot => "Dot"
  | .question => "Question"
  | .typeWord => "Type"
  | .identifier => "Ident"
  | .docComment => "DocComment"
  | .stringLiteral => "StringLiteral"
  | .number => "NumLiteral"
  | .truth => "BoolLiteral"
  | .assign => "Assign"
  | .equal => "Equality"
  | .arrow => "Arrow"
  | .less => "LessThan"
  | .lessEqual => "LessOrEqual"
  | .shiftLeft => "LShift"
  | .shiftLeftAssign => "LShiftAssign"
  | .greater => "GreaterThan"
  | .greaterEqual => "GreaterOrEqual"
  | .shiftRight => "RShift"
  | .shiftRightAssign => "RShiftAssign"
  | .ampersand => "Ampersand"
  | .andAnd => "LogicalAnd"
  | .pipe => "Pipe"
  | .orOr => "LogicalOr"
  | .xor => "Xor"
  | .plus => "Plus"
  | .increment => "Increment"
  | .plusAssign => "PlusAssign"
  | .minus => "Minus"
  | .decrement => "Decrement"
  | .minusAssign => "MinusAssign"
  | .star => "Star"
  | .slash => "FSlash"
  | .percent => "Modulo"
  | .bang => "Not"
  | .notEqual => "Neq"
  | .kwIf => "If"
  | .kwDo => "Do"
  | .kwWhile => "While"
  | .kwReturn => "Return"
  | .kwElse => "Else"
  | .kwCall => "Call"
  | .kwImport => "Import"
  | .kwAs => "As"
  | .kwIn => "In"
  | .kwScatter => "Scatter"
  | .kwDefault => "Default"
  | .kwSwitch => "Switch"
  | .kwCase => "Case"
  | .kwBreak => "Break"
  | .kwContinue => "Continue"
  | .kwThrow => "Throw"
  | .kwCatch => "Catch"
  | .kwFinally => "Finally"
  | .kwTry => "Try"
  | .kwVar => "Var"
  | .kwConst => "Const"
  | .kwUsing => "Using"
  | .kwNamespace => "Namespace"
  | .kwStatic => "Static"
  | .kwVoid => "Void"
  | .kwVirtual => "Virtual"
  | .kwReadonly => "Readonly"
  | .kwOverride => "Override"
  | .kwNew => "New"
  | .kwPublic => "Public"
  | .kwPrivate => "Private"
  | .kwProtected => "Protected"
  | .kwInternal => "Internal"
  | .kwAbstract => "Abstract"
  | .kwSealed => "Sealed"
  | .kwAsync => "Async"
  | .kwAwait => "Await"
  | .kwGet => "Get"
  | .kwSet => "Set"
  | .kwThis => "This"

/-- Every kind, once. -/
def all : List Kind :=
  [.eof, .stray, .semicolon, .leftParen, .rightParen, .leftBrace, .rightBrace, .leftBracket,
   .rightBracket, .hash, .colon, .comma, .dot, .question, .typeWord, .identifier, .docComment,
   .stringLiteral, .number, .truth, .assign, .equal, .arrow, .less, .lessEqual, .shiftLeft,
   .shiftLeftAssign, .greater, .greaterEqual, .shiftRight, .shiftRightAssign, .ampersand,
   .andAnd, .pipe, .orOr, .xor, .plus, .increment, .plusAssign, .minus, .decrement, .minusAssign,
   .star, .slash, .percent, .bang, .notEqual, .kwIf, .kwDo, .kwWhile, .kwReturn, .kwElse,
   .kwCall, .kwImport, .kwAs, .kwIn, .kwScatter, .kwDefault, .kwSwitch, .kwCase, .kwBreak,
   .kwContinue, .kwThrow, .kwCatch, .kwFinally, .kwTry, .kwVar, .kwConst, .kwUsing, .kwNamespace,
   .kwStatic, .kwVoid, .kwVirtual, .kwReadonly, .kwOverride, .kwNew, .kwPublic, .kwPrivate,
   .kwProtected, .kwInternal, .kwAbstract, .kwSealed, .kwAsync, .kwAwait, .kwGet, .kwSet,
   .kwThis]

/-- The list misses no kind. -/
theorem mem_all (kind : Kind) : kind ∈ all := by
  cases kind <;> decide

/-- The kind with the given name. -/
def ofName? (name : String) : Option Kind := all.find? (·.name = name)

end Kind

end SharpLexer
