import SharpLexer.Proofs.Binary64.Decimal
import SharpLexer.Proofs.Quoting

/-!
# The line of a token is unambiguous

A token is shown on one line, field by field.  The line tells the token, whatever stands in
its lexeme: no lexeme can imitate the fields behind it, because the quote that closes it is
told from the quotes inside it.

* `Token.Same` are the tokens that are shown alike.  They differ at most in the pattern of a
  float that is no number.
* `Token.Shows` are the lines for a token when the characters of its lexeme are escaped in
  any way that a quoted text allows.
* `Token.Shows.same` goes through the fields of a line from left to right.
* `Token.render_unambiguous` is the statement for the line that is written.
-/

namespace SharpLexer

/-! ## Shown alike -/

/-- Values that are shown alike. -/
def Literal.Same : Literal → Literal → Prop
  | .int a, .int b => a = b
  | .float x, .float y => x = y ∨ (x.isNaN = true ∧ y.isNaN = true)
  | _, _ => False

/-- Tokens that are shown alike. -/
structure Token.Same (a b : Token) : Prop where
  kind : a.kind = b.kind
  lexeme : a.lexeme = b.lexeme
  line : a.position.line = b.position.line
  column : a.position.column = b.position.column
  literal : Option.Rel Literal.Same a.literal? b.literal?

/-! ## Fields -/

/-- A name tells its kind. -/
theorem Kind.name_inj {a b : Kind} (h : a.name = b.name) : a = b := by
  have hread : ∀ kind ∈ all, ofName? kind.name = some kind := by decide +kernel
  have hboth : some a = some b := by
    rw [← hread a a.mem_all, ← hread b b.mem_all, h]
  exact Option.some.inj hboth

theorem Kind.comma_not_mem_name (kind : Kind) : ',' ∉ kind.name.toList := by
  have hall : ∀ kind ∈ all, ',' ∉ kind.name.toList := by decide +kernel
  exact hall kind kind.mem_all

/-- The name of a kind ends at the comma behind it. -/
theorem Kind.eq_of_name_append {a b : Kind} {x y : List Char} (hx : x.head? = some ',')
    (hy : y.head? = some ',') (h : a.name.toList ++ x = b.name.toList ++ y) : a = b ∧ x = y := by
  obtain ⟨hname, hback⟩ := span_inj (forall_bne_iff.2 a.comma_not_mem_name) (by simp [hx])
    (forall_bne_iff.2 b.comma_not_mem_name) (by simp [hy]) h
  exact ⟨name_inj (String.toList_inj.1 hname), hback⟩

/-- A count ends in front of what is no digit. -/
theorem eq_of_repr_append {m n : Nat} {x y : List Char}
    (hx : ∀ c ∈ x.head?, c.isDigit = false) (hy : ∀ c ∈ y.head?, c.isDigit = false)
    (h : m.repr.toList ++ x = n.repr.toList ++ y) : m = n ∧ x = y := by
  rw [Nat.toList_repr, Nat.toList_repr] at h
  obtain ⟨hdigits, hback⟩ := span_inj Binary64.isDigit_of_mem_toDigits hx
    Binary64.isDigit_of_mem_toDigits hy h
  refine ⟨Nat.eq_of_repr_eq (String.toList_inj.1 ?_), hback⟩
  rw [Nat.toList_repr, Nat.toList_repr, hdigits]

/-- Texts that start with different characters differ. -/
theorem ne_of_head?_ne {s t : String} (h : s.toList.head? ≠ t.toList.head?) : s ≠ t := by
  rintro rfl
  exact h rfl

theorem Literal.render_eq_iff {a b : Literal} : a.render = b.render ↔ a.Same b := by
  cases a with
  | int a =>
    cases b with
    | int b =>
      show "int_val=" ++ a.toInt.repr = "int_val=" ++ b.toInt.repr ↔ a = b
      rw [String.append_right_inj]
      constructor
      · intro h
        exact Int64.toInt_inj.1 (Int.eq_of_repr_eq h)
      · rintro rfl
        rfl
    | float y =>
      show "int_val=" ++ a.toInt.repr = "float_val=" ++ y.render ↔ False
      rw [iff_false]
      exact ne_of_head?_ne (by simp)
  | float x =>
    cases b with
    | int b =>
      show "float_val=" ++ x.render = "int_val=" ++ b.toInt.repr ↔ False
      rw [iff_false]
      exact ne_of_head?_ne (by simp)
    | float y =>
      show "float_val=" ++ x.render = "float_val=" ++ y.render ↔ _
      rw [String.append_right_inj, Binary64.render_eq_iff]
      rfl

/-- The field of a value, if there is one. -/
def Literal.field : Option Literal → String
  | some value => ", " ++ value.render
  | none => ""

theorem head?_append_of_head? {α : Type} {c : α} {front : List α} (h : front.head? = some c)
    (back : List α) : (front ++ back).head? = some c := by
  rw [List.head?_append, h, Option.some_or]

/-- A comma ends a number. -/
theorem isDigit_eq_false_of_comma {front : List Char} (h : front.head? = some ',')
    (back : List Char) : ∀ c ∈ (front ++ back).head?, c.isDigit = false := by
  intro c hc
  rw [head?_append_of_head? h] at hc
  obtain rfl : ',' = c := Option.some.inj hc
  rfl

/-- The field goes on with a comma, or it leaves the bracket at the end. -/
theorem Literal.head?_field (value? : Option Literal) :
    ∀ c ∈ ((field value?).toList ++ ")".toList).head?, c.isDigit = false := by
  cases value? with
  | none =>
    intro c hc
    obtain rfl : ')' = c := Option.some.inj hc
    rfl
  | some value =>
    have hcomma : ", ".toList.head? = some ',' := rfl
    rw [field, String.toList_append, List.append_assoc]
    exact isDigit_eq_false_of_comma hcomma _

theorem Literal.field_eq_iff {a b : Option Literal} :
    field a = field b ↔ Option.Rel Same a b := by
  cases a with
  | none =>
    cases b with
    | none => exact ⟨fun _ => .none, fun _ => rfl⟩
    | some b =>
      constructor
      · intro h
        exact absurd h (ne_of_head?_ne (by simp [field]))
      · intro h
        cases h
  | some a =>
    cases b with
    | none =>
      constructor
      · intro h
        exact absurd h (ne_of_head?_ne (by simp [field]))
      · intro h
        cases h
    | some b =>
      show ", " ++ a.render = ", " ++ b.render ↔ _
      rw [String.append_right_inj, render_eq_iff, Option.rel_some_some]

namespace Token

/-- A token on one line, with the given form of its lexeme. -/
def renderAs (token : Token) (quoted : String) : String :=
  "Token(kind=" ++ token.kind.name ++
    ", lexeme=" ++ quoted ++
    ", line=" ++ token.position.line.repr ++
    ", column=" ++ token.position.column.repr ++
    Literal.field token.literal? ++ ")"

theorem render_eq_renderAs (token : Token) :
    token.render = token.renderAs (Text.quoteText token.lexeme) := rfl

/-- The lines that a token may be shown as.  Between the quotes, any character of the lexeme
may be escaped, and a quote or a backslash has to be. -/
def Shows (token : Token) (line : String) : Prop :=
  ∃ spelling, Text.Spelled '"' token.lexeme.toList spelling ∧
    line = token.renderAs (String.ofList ('"' :: (spelling ++ ['"'])))

theorem shows_render (token : Token) : token.Shows token.render :=
  ⟨_, Text.spelled_flatMap '"' token.lexeme.toList, token.render_eq_renderAs⟩

/-- The characters of a line, field by field. -/
theorem toList_renderAs (token : Token) (quoted : String) :
    (token.renderAs quoted).toList =
      "Token(kind=".toList ++ (token.kind.name.toList ++ (", lexeme=".toList ++
        (quoted.toList ++ (", line=".toList ++ (token.position.line.repr.toList ++
          (", column=".toList ++ (token.position.column.repr.toList ++
            ((Literal.field token.literal?).toList ++ ")".toList)))))))) := by
  -- no step may look into a label, so the row is proved for ten strings of any kind
  have hrow : ∀ s₀ s₁ s₂ s₃ s₄ s₅ s₆ s₇ s₈ s₉ : String,
      (s₀ ++ s₁ ++ s₂ ++ s₃ ++ s₄ ++ s₅ ++ s₆ ++ s₇ ++ s₈ ++ s₉).toList =
        s₀.toList ++ (s₁.toList ++ (s₂.toList ++ (s₃.toList ++ (s₄.toList ++ (s₅.toList ++
          (s₆.toList ++ (s₇.toList ++ (s₈.toList ++ s₉.toList)))))))) := by
    intros
    simp only [String.toList_append, List.append_assoc]
  exact hrow _ _ _ _ _ _ _ _ _ _

theorem toList_quoted_append (spelling rest : List Char) :
    (String.ofList ('"' :: (spelling ++ ['"']))).toList ++ rest =
      '"' :: (spelling ++ '"' :: rest) := by
  simp

/-- A line is read field by field. -/
theorem Shows.same {a b : Token} {line : String} (ha : a.Shows line) (hb : b.Shows line) :
    a.Same b := by
  obtain ⟨v, hv, rfl⟩ := ha
  obtain ⟨w, hw, hline⟩ := hb
  have hchars := (toList_renderAs a _).symm.trans
    ((congrArg String.toList hline).trans (toList_renderAs b _))
  have hlexemeLabel : ", lexeme=".toList.head? = some ',' := rfl
  have hcolumnLabel : ", column=".toList.head? = some ',' := rfl
  -- a label ends every field but the lexeme, which may hold labels of its own
  obtain ⟨hkind, hbehindKind⟩ := Kind.eq_of_name_append (head?_append_of_head? hlexemeLabel _)
    (head?_append_of_head? hlexemeLabel _) (List.append_cancel_left hchars)
  have hquoted := (toList_quoted_append v _).symm.trans
    ((List.append_cancel_left hbehindKind).trans (toList_quoted_append w _))
  obtain ⟨hlexeme, hbehindLexeme⟩ := hv.inj rfl hw (List.cons.inj hquoted).2
  obtain ⟨hline, hbehindLine⟩ := eq_of_repr_append (isDigit_eq_false_of_comma hcolumnLabel _)
    (isDigit_eq_false_of_comma hcolumnLabel _) (List.append_cancel_left hbehindLexeme)
  obtain ⟨hcolumn, hvalue⟩ := eq_of_repr_append (Literal.head?_field _) (Literal.head?_field _)
    (List.append_cancel_left hbehindLine)
  have hfield := String.toList_inj.1 (List.append_cancel_right hvalue)
  exact ⟨hkind, String.toList_inj.1 hlexeme, hline, hcolumn, Literal.field_eq_iff.1 hfield⟩

/-- Two tokens have the same line if and only if they are the same but for the pattern of a
float that is no number.  It does not matter which characters of the lexemes are escaped. -/
theorem render_unambiguous (a b : Token) :
    (a.render = b.render ↔ a.Same b) ∧ a.Shows a.render ∧
      ∀ line, a.Shows line → b.Shows line → a.Same b := by
  refine ⟨⟨?_, ?_⟩, a.shows_render, fun line ha hb => ha.same hb⟩
  · intro h
    apply a.shows_render.same
    rw [h]
    exact b.shows_render
  · rintro ⟨hkind, hlexeme, hline, hcolumn, hliteral⟩
    have hfield := Literal.field_eq_iff.2 hliteral
    rw [render_eq_renderAs, render_eq_renderAs]
    unfold renderAs
    rw [hkind, hlexeme, hline, hcolumn, hfield]

end Token

/-- A string whose text goes on like a line. -/
def imitatingToken : Token := .plain .stringLiteral "x\", line=1, column=1)".toList ⟨1, 1⟩

/-- A word with a combining mark at its front and at its end. -/
def markedToken : Token := .plain .identifier "\u0301e\u0301".toList ⟨1, 1⟩

/-- A line for `markedToken` in which only the first mark is escaped. -/
def markedLine : String :=
  "Token(kind=Ident, lexeme=\"\\u\x7b301\x7de\u0301\", line=1, column=1)"

/-- A text that imitates the end of a line or an escape is not taken for one. -/
theorem render_of_imitatingToken :
    imitatingToken.render ≠ (Token.plain .stringLiteral ['x'] ⟨1, 1⟩).render ∧
      markedToken.Shows markedLine ∧
      ¬ (Token.plain .identifier "\\u\x7b301\x7de\u0301".toList ⟨1, 1⟩).Shows markedLine := by
  have hshows : markedToken.Shows markedLine := by
    refine ⟨_, .cons (.code '\u0301') (.cons (.plain ?_ ?_) (.cons (.plain ?_ ?_) .nil)), ?_⟩
    all_goals decide +kernel
  refine ⟨?_, hshows, ?_⟩
  · intro h
    have hsame := (Token.render_unambiguous imitatingToken _).1.1 h
    exact absurd hsame.lexeme (by decide +kernel)
  · intro h
    have hsame := (Token.render_unambiguous markedToken _).2.2 markedLine hshows h
    exact absurd hsame.lexeme (by decide +kernel)

end SharpLexer
