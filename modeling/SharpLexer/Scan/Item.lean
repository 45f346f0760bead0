import SharpLexer.Event
import SharpLexer.Scan.Number
import SharpLexer.Text.Lines
import SharpLexer.Token.Operator
import SharpLexer.Token.Word

/-!
# What stands behind a gap

Behind the gap stands an item: the characters of a token, or those of
something that was meant to be one.  `Item.cut` tells how far an item
reaches, and `Item.outcome` what it means.  An item and the text behind it
make up the text again, so no character is lost between two items but the
gap.
-/

namespace SharpLexer

/-- The result of reading one item. -/
abbrev Outcome := Except Error Token

/-- The characters that one token, or one error, is made from. -/
inductive Item where
  | operator (op : Operator)
  | word (text : List Char)
  | number (literal : List Char)
  /-- A string, closed by the quote that opens it. -/
  | quoted (quote : Char) (body : List Char)
  /-- A documentation comment, up to its newline. -/
  | doc (text : List Char)
  /-- A character that starts nothing. -/
  | stray (c : Char)
  /-- A string that is never closed. -/
  | openQuoted (quote : Char) (body : List Char)
  /-- A block comment that is never closed. -/
  | openBlock (body : List Char)
  deriving DecidableEq

namespace Item

/-- The characters of an item. -/
def text : Item → List Char
  | operator op => op.symbol
  | word text => text
  | number literal => literal
  | quoted quote body => quote :: (body ++ [quote])
  | doc text => text
  | stray c => [c]
  | openQuoted quote body => quote :: body
  | openBlock body => '/' :: '*' :: body

/-- An item that lacks its end, and so takes up the rest of the text. -/
def isOpen : Item → Bool
  | openQuoted _ _ => true
  | openBlock _ => true
  | _ => false

/-! ## How far an item reaches -/

/-- A character that opens a string. -/
def isQuote (c : Char) : Bool := c = '"' || c = '\''

/-- A character that starts a word. -/
def startsWord (c : Char) : Bool := c.isAlpha || c = '_'

/-- A character that goes on with a word. -/
def continuesWord (c : Char) : Bool := c.isAlphanum || c = '_'

/-- A string reaches to the next quote of the kind that opens it. -/
def cutQuoted (quote : Char) (rest : List Char) : Item × List Char :=
  match rest.dropWhile (· != quote) with
  | [] => (openQuoted quote rest, [])
  | _ :: after => (quoted quote (rest.takeWhile (· != quote)), after)

/-- A word takes in one question mark at its end. -/
def cutWord (c : Char) (rest : List Char) : Item × List Char :=
  let letters := c :: rest.takeWhile continuesWord
  match rest.dropWhile continuesWord with
  | '?' :: after => (word (letters ++ ['?']), after)
  | after => (word letters, after)

/-- A number reaches over digits, underscores and points. -/
def cutNumber (c : Char) (rest : List Char) : Item × List Char :=
  (number (c :: rest.takeWhile Number.continues), rest.dropWhile Number.continues)

/-- A documentation comment reaches to the end of its line. -/
def cutDoc (text : List Char) : Item × List Char :=
  (doc (text.takeWhile (· != '\n')), text.dropWhile (· != '\n'))

/-- An operator is the longest that fits, and a character that nothing
fits is stray. -/
def cutOperator (c : Char) (rest : List Char) : Item × List Char :=
  match Operator.find? (c :: rest) with
  | some op => (operator op, (c :: rest).drop op.symbol.length)
  | none => (stray c, rest)

/-- The item at the head of the text `c :: rest`, and the text behind it.
A comment that can be skipped is not expected here. -/
def cut (c : Char) (rest : List Char) : Item × List Char :=
  if isQuote c then cutQuoted c rest
  else if startsWord c then cutWord c rest
  else if c.isDigit then cutNumber c rest
  else if ['/', '/', '/'].isPrefixOf (c :: rest) then cutDoc (c :: rest)
  else if ['/', '*'].isPrefixOf (c :: rest) then (openBlock (rest.drop 1), [])
  else cutOperator c rest

/-! ## Nothing is lost -/

theorem head_of_dropWhile_ne {q c : Char} {text after : List Char}
    (h : text.dropWhile (· != q) = c :: after) : c = q := by
  have := List.head?_dropWhile_not (· != q) text
  simpa [h] using this

theorem text_append_cutQuoted (quote : Char) (rest : List Char) :
    (cutQuoted quote rest).1.text ++ (cutQuoted quote rest).2 = quote :: rest := by
  have hsplit := List.takeWhile_append_dropWhile (p := (· != quote)) (l := rest)
  unfold cutQuoted
  split
  · simp [text]
  · next c after h =>
    obtain rfl := head_of_dropWhile_ne h
    simpa [text, h] using hsplit

theorem text_append_cutWord (c : Char) (rest : List Char) :
    (cutWord c rest).1.text ++ (cutWord c rest).2 = c :: rest := by
  have hsplit := List.takeWhile_append_dropWhile (p := continuesWord) (l := rest)
  simp only [cutWord]
  split
  · next after h => simpa [text, h] using hsplit
  · simp [text]

theorem text_append_cutOperator (c : Char) (rest : List Char) :
    (cutOperator c rest).1.text ++ (cutOperator c rest).2 = c :: rest := by
  unfold cutOperator
  split
  · next op h =>
    obtain ⟨after, hafter⟩ := (Operator.find?_eq_some h).2
    simp [text, ← hafter]
  · simp [text]

/-- An item and what stands behind it make up the text. -/
theorem text_append_cut (c : Char) (rest : List Char) :
    (cut c rest).1.text ++ (cut c rest).2 = c :: rest := by
  unfold cut
  split
  · exact text_append_cutQuoted c rest
  · split
    · exact text_append_cutWord c rest
    · split
      · simp [cutNumber, text]
      · split
        · simp [cutDoc, text]
        · split
          · next h =>
            rcases rest with _ | ⟨d, rest⟩
            · simp at h
            · obtain ⟨rfl, rfl⟩ : '/' = c ∧ '*' = d := by simpa using h
              simp [text]
          · exact text_append_cutOperator c rest

/-- Every item has at least one character. -/
theorem text_cut_ne_nil (c : Char) (rest : List Char) : (cut c rest).1.text ≠ [] := by
  unfold cut
  split
  · unfold cutQuoted
    split <;> simp [text]
  · split
    · simp only [cutWord]
      split <;> simp [text]
    · split
      · simp [cutNumber, text]
      · split
        · next h =>
          obtain ⟨after, hafter⟩ := List.isPrefixOf_iff_prefix.1 h
          simp [cutDoc, text, ← hafter]
        · split
          · simp [text]
          · unfold cutOperator
            split
            · next op h =>
              exact Operator.symbol_ne_nil op (Operator.find?_eq_some h).1
            · simp [text]

/-- An item takes something away from the text. -/
theorem length_cut (c : Char) (rest : List Char) : (cut c rest).2.length ≤ rest.length := by
  have hpos : 0 < (cut c rest).1.text.length := List.length_pos_iff.2 (text_cut_ne_nil c rest)
  have := congrArg List.length (text_append_cut c rest)
  simp at this
  omega

/-! ## What an item means -/

/-- The token or the error that an item at the given place makes. -/
def outcome (start : Position) : Item → Outcome
  | operator op => .ok (.plain op.kind op.symbol start)
  | word text => .ok (.plain (Word.kind (String.ofList text)) text start)
  | number literal =>
    match Number.read literal with
    | .ok value => .ok (.number literal start value)
    | .error fault => .error ⟨fault, start⟩
  | quoted _ body => .ok (.plain .stringLiteral body start)
  | doc text => .ok (.plain .docComment (Text.dropReturn text) start)
  | stray c => .ok (.plain .stray [c] start)
  | openQuoted quote _ => .error ⟨.unterminatedString quote, start⟩
  | openBlock _ => .error ⟨.unterminatedComment, start⟩

/-- What is reported of an outcome: a token is listed, an error is not. -/
def produced : Outcome → List Event
  | .ok token => [.produced token]
  | .error _ => []

/-- What is reported of an item at the given place. -/
def events (start : Position) (item : Item) : List Event :=
  (match item with
    | stray c => [.unrecognized c start]
    | _ => []) ++ produced (item.outcome start)

end Item

end SharpLexer
