import SharpLexer.Token.Kind

/-!
# Words with a meaning of their own

Three tables classify a word, in whatever case it is written.  A word
that is not reserved is an ordinary identifier.  Of the reserved words,
some name a type, some are keywords with a kind of their own, and the
rest are kept for later use and read as identifiers.
-/

namespace SharpLexer.Word

/-- The words that are not free for use as names, in lower case. -/
def reserved : List String :=
  ["abstract", "and", "array", "as", "async", "await", "bool", "boolean", "break", "byte",
   "call", "case", "catch", "char", "class", "command", "const", "continue", "default", "do",
   "else", "false", "file", "finally", "float", "get", "if", "import", "in", "input", "int",
   "internal", "long", "map", "namespace", "new", "not", "object", "or", "output", "override",
   "pair", "parameter_meta", "private", "protected", "public", "readonly", "return", "runtime",
   "scatter", "sealed", "set", "short", "static", "string", "struct", "switch", "task", "then",
   "this", "throw", "true", "try", "using", "var", "virtual", "void", "while", "workflow", "xor"]

/-- The reserved words that name a type. -/
def types : List String :=
  ["array", "bool", "boolean", "byte", "char", "class", "file", "float", "input", "int", "long",
   "map", "object", "output", "pair", "short", "string", "struct", "task", "workflow"]

/-- The reserved words with a kind of their own. -/
def keywords : List (String × Kind) :=
  [("abstract", .kwAbstract), ("as", .kwAs), ("async", .kwAsync), ("await", .kwAwait),
   ("break", .kwBreak), ("call", .kwCall), ("case", .kwCase), ("catch", .kwCatch),
   ("const", .kwConst), ("continue", .kwContinue), ("default", .kwDefault), ("do", .kwDo),
   ("else", .kwElse), ("false", .truth), ("finally", .kwFinally), ("get", .kwGet), ("if", .kwIf),
   ("import", .kwImport), ("in", .kwIn), ("internal", .kwInternal), ("namespace", .kwNamespace),
   ("new", .kwNew), ("override", .kwOverride), ("private", .kwPrivate),
   ("protected", .kwProtected), ("public", .kwPublic), ("readonly", .kwReadonly),
   ("return", .kwReturn), ("scatter", .kwScatter), ("sealed", .kwSealed), ("set", .kwSet),
   ("static", .kwStatic), ("switch", .kwSwitch), ("this", .kwThis), ("throw", .kwThrow),
   ("true", .truth), ("try", .kwTry), ("using", .kwUsing), ("var", .kwVar),
   ("virtual", .kwVirtual), ("void", .kwVoid), ("while", .kwWhile), ("xor", .xor)]

/-- A word in lower case.  Only the letters of ASCII have a case here. -/
def fold (word : String) : String := String.ofList (word.toList.map Char.toLower)

/-- A reserved word. -/
def isReserved (word : String) : Bool := reserved.contains (fold word)

/-- A word that names a type. -/
def isType (word : String) : Bool := types.contains (fold word)

/-- The kind of a reserved word.  A type comes before a keyword, and a
reserved word that is neither is an identifier. -/
def lookup? (word : String) : Option Kind :=
  if isReserved word then
    if isType word then some .typeWord
    else some ((keywords.lookup (fold word)).getD .identifier)
  else none

/-- The kind of any word. -/
def kind (word : String) : Kind := (lookup? word).getD .identifier

end SharpLexer.Word
