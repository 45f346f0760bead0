import SharpLexer.Diagnostic
import SharpLexer.Proofs.SourceLine
import SharpLexer.Proofs.Tokenize

/-!
# Where the caret points

A diagnostic shows the line of an error without its indentation and without
the white space at its end, and a caret below it.  This module says that the
caret is below the character at the place of the error, or below the place
where that character was before white space was taken away.

* `Text.getElem?_trimEnd` says which characters `Text.trimEnd` leaves where
  they are.
* `exists_offender` finds the character at the place of an error, and
  `Diagnostic.exists_indent` the indentation of its line.
* `Diagnostic.exists_rule` and `Diagnostic.getElem?_numbered_trimEnd` count the
  characters of the two lines.
* `caret_of_tokenize` says where the caret stands.
-/

namespace SharpLexer

/-! ## White space at the end -/

namespace Text

/-- What is taken away at the end is white space. -/
theorem exists_trimEnd (text : List Char) :
    ∃ cut, text = trimEnd text ++ cut ∧ ∀ c ∈ cut, isWhiteSpace c = true := by
  refine ⟨(text.reverse.takeWhile isWhiteSpace).reverse, ?_, ?_⟩
  · rw [trimEnd, ← List.reverse_append, List.takeWhile_append_dropWhile, List.reverse_reverse]
  · intro c hc
    exact List.mem_takeWhile_imp (List.mem_reverse.1 hc)

/-- A character stays where it is, or it and everything behind it is white
space. -/
theorem getElem?_trimEnd {text : List Char} {i : Nat} {c : Char} (h : text[i]? = some c) :
    (trimEnd text)[i]? = some c ∨
      ((trimEnd text).length ≤ i ∧ ∀ d ∈ text.drop i, isWhiteSpace d = true) := by
  obtain ⟨cut, htext, hcut⟩ := exists_trimEnd text
  rcases Nat.lt_or_ge i (trimEnd text).length with hinside | hbehind
  · rw [htext, List.getElem?_append_left hinside] at h
    exact Or.inl h
  · refine Or.inr ⟨hbehind, ?_⟩
    intro d hd
    rw [htext, List.drop_append, List.drop_eq_nil_of_le hbehind, List.nil_append] at hd
    exact hcut d (List.mem_of_mem_drop hd)

/-- The carriage return that a line has lost is white space as well. -/
theorem isWhiteSpace_of_dropReturn {text : List Char}
    (h : ∀ c ∈ dropReturn text, isWhiteSpace c = true) : ∀ c ∈ text, isWhiteSpace c = true := by
  rcases dropReturn_cases text with htext | htext
  · rw [htext]
    exact h
  · rw [htext]
    exact List.forall_mem_append.2 ⟨h, List.forall_mem_singleton.2 (by decide)⟩

end Text

/-! ## The character at the place of an error -/

/-- The place of an error is that of a character that separates nothing. -/
theorem exists_offender {source : String} {error : Error} (h : tokenize source = .error error)
    (hfault : error.fault ≠ .emptyInput) :
    ∃ front offender rest, source.toList = front ++ offender :: rest ∧
      error.position = (Position.start.advance front).right ∧ Text.isBlank offender = false := by
  rcases tokenize_eq_error_cases h with ⟨-, rfl⟩ | ⟨n, hstrict⟩
  · exact absurd rfl hfault
  · obtain ⟨hend, hplace⟩ := Cursor.position_of_strict hstrict
    have hstands := Cursor.standsIn_later (Cursor.standsIn_start source.toList) n
    obtain ⟨front, item, tail, hshape, hstops, htext, hvalue⟩ :=
      Cursor.exists_item_of_standsIn hstands hend
    obtain ⟨offender, more, hitem, hblank⟩ := Item.exists_head_of_wellFormed hshape hstops
    refine ⟨front, offender, more ++ tail, by rw [htext, hitem, List.cons_append], ?_, hblank⟩
    rw [← hplace, hvalue, Item.position_outcome]

namespace Diagnostic

theorem isBlank_of_isIndent {c : Char} (h : isIndent c = true) : Text.isBlank c = true := by
  simp only [isIndent, Bool.or_eq_true, decide_eq_true_eq] at h
  rcases h with rfl | rfl <;> decide

/-- A character that separates nothing stands behind the indentation of its
line, with the rest of the line behind it. -/
theorem exists_indent (front : List Char) {offender : Char}
    (hblank : Text.isBlank offender = false) (rest : List Char) :
    ∃ indent text,
      Text.line? (front ++ offender :: rest) (Position.start.advance front).line =
        some (indent ++ text) ∧
      (∀ c ∈ indent, isIndent c = true) ∧ (∀ c ∈ text.head?, isIndent c = false) ∧
      indent.length ≤ (Position.start.advance front).column ∧
      text[(Position.start.advance front).column - indent.length]? = some offender ∧
      text.drop ((Position.start.advance front).column - indent.length) =
        Text.dropReturn ((offender :: rest).takeWhile (· != '\n')) := by
  have hends : offender ≠ '\n' ∧ offender ≠ '\r' := by
    constructor <;> rintro rfl <;> exact absurd hblank (by decide)
  have hne : (offender :: rest).takeWhile (· != '\n') ≠ [] := by simp [hends.1]
  obtain ⟨whole, hline, hdrop⟩ := Text.exists_line_of_ahead front hne
  have hfirst : [offender] <+: offender :: rest := List.prefix_append _ _
  obtain ⟨more, hmore⟩ :=
    Text.prefix_dropReturn ⟨by simp [hends.1.symm], by simp [hends.2.symm]⟩ hfirst
  have hget : whole[(Position.start.advance front).column]? = some offender := by
    rw [← List.head?_drop, hdrop]
    exact congrArg List.head? hmore.symm
  have hsplit := List.takeWhile_append_dropWhile (p := isIndent) (l := whole)
  have hindent : ∀ c ∈ whole.takeWhile isIndent, isIndent c = true := fun _ =>
    List.mem_takeWhile_imp
  have hbehind : (whole.takeWhile isIndent).length ≤ (Position.start.advance front).column := by
    -- an indentation is made of blanks, and the character is none
    by_contra hinside
    rw [← hsplit, List.getElem?_append_left (by omega)] at hget
    have hoffender := isBlank_of_isIndent (hindent offender (List.mem_of_getElem? hget))
    rw [hblank] at hoffender
    exact absurd hoffender (by decide)
  refine ⟨whole.takeWhile isIndent, whole.dropWhile isIndent, by rw [hsplit]; exact hline, hindent,
    head?_dropWhile_span isIndent whole, hbehind, ?_, ?_⟩
  · rw [← List.getElem?_append_right hbehind, hsplit]
    exact hget
  · rw [← hdrop]
    conv_rhs => rw [← hsplit, List.drop_append, List.drop_eq_nil_of_le hbehind, List.nil_append]

/-! ## Two lines, character by character -/

/-- The characters of a line that has its number in front of it. -/
def numbered (line : Nat) (text : List Char) : List Char :=
  line.repr.toList ++ [' ', '|', ' '] ++ text

theorem ofList_numbered (line : Nat) (text : List Char) :
    line.repr ++ " | " ++ String.ofList text = String.ofList (numbered line text) := by
  rw [← String.toList_inj]
  simp [numbered]

theorem length_number (line : Nat) :
    (line.repr.toList ++ [' ', '|', ' ']).length = line.repr.length + 3 := by
  rw [List.length_append, String.length_toList]
  rfl

theorem length_numbered (line : Nat) (text : List Char) :
    (numbered line text).length = line.repr.length + 3 + text.length := by
  rw [numbered, List.length_append, length_number]

/-- The text starts behind the number and the bar. -/
theorem drop_numbered (line : Nat) (text : List Char) (i : Nat) :
    (numbered line text).drop (line.repr.length + 3 + i) = text.drop i := by
  rw [numbered, ← length_number, List.drop_append, List.drop_eq_nil_of_le (Nat.le_add_right _ _),
    Nat.add_sub_cancel_left, List.nil_append]

/-- Without the white space at its end, the line shows a character of the text
where it was, or ends before it. -/
theorem getElem?_numbered_trimEnd (line : Nat) {text : List Char} {i : Nat} {c : Char}
    (h : text[i]? = some c) :
    (numbered line (Text.trimEnd text))[line.repr.length + 3 + i]? = some c ∨
      (numbered line (Text.trimEnd text)).length ≤ line.repr.length + 3 + i ∧
        ∀ d ∈ text.drop i, Text.isWhiteSpace d = true := by
  rw [← List.head?_drop, drop_numbered, List.head?_drop, length_numbered]
  rcases Text.getElem?_trimEnd h with hstays | ⟨hcut, hwhite⟩
  · exact Or.inl hstays
  · exact Or.inr ⟨by omega, hwhite⟩

/-- The line of the caret is a rule with the caret behind it, and the rule is
as long as the number, the bar and the text in front of the caret. -/
theorem exists_rule (line column : Nat) :
    ∃ rule, margin line ++ " " ++ caret column = String.ofList (rule ++ ['^']) ∧ '^' ∉ rule ∧
      rule.length = line.repr.length + 3 + (column - 1) := by
  refine ⟨List.replicate (line.repr.length + 1) ' ' ++ ['|', ' '] ++
    List.replicate (column - 1) '-', ?_, ?_, ?_⟩
  · rw [← String.toList_inj]
    simp [margin, caret]
  · simp
  · simp
    omega

/-- A place on a line has five lines, unless the caret needs too much room. -/
theorem ofError_of_line {error : Error} {source : String} (file : String)
    {indent text : List Char}
    (hline : Text.line? source.toList error.position.line = some (indent ++ text))
    (hindent : ∀ c ∈ indent, isIndent c = true) (htext : ∀ c ∈ text.head?, isIndent c = false)
    (hwidth : caretColumn error.position.column (indent ++ text) ≤ widest) :
    ofError error source file =
      ⟨[title error.fault, "-> " ++ file ++ ":" ++ error.position.render,
        margin error.position.line,
        String.ofList (numbered error.position.line (Text.trimEnd text)),
        margin error.position.line ++ " " ++
          caret (caretColumn error.position.column (indent ++ text))], true⟩ := by
  simp only [ofError, hline, excerpt, if_pos hwidth, shown, dropWhile_span hindent htext,
    ofList_numbered]
  rfl

/-- Neither bound of the column of the caret matters behind the indentation. -/
theorem caretColumn_of_indent {indent text : List Char}
    (hindent : ∀ c ∈ indent, isIndent c = true) (htext : ∀ c ∈ text.head?, isIndent c = false)
    {column : Nat} (hcolumn : indent.length < column) :
    caretColumn column (indent ++ text) = column - indent.length := by
  rw [caretColumn, takeWhile_span hindent htext]
  omega

end Diagnostic

/-! ## The caret -/

/-- The diagnostic of an empty text has two lines.  Every other error of a text
stands at the place of a character, behind the indentation of its line, and
its caret is as wide as the distance from there.  If that is not too wide, there
are five lines.  The caret in the last of them is below the character, and what
the line above would show from it on is the rest of the line of the text.  Only
where all of that is white space, the line above ends before it. -/
theorem caret_of_tokenize {source : String} {error : Error} (file : String)
    (h : tokenize source = .error error) :
    (error.fault = .emptyInput →
        Diagnostic.ofError error source file =
          ⟨[Diagnostic.title error.fault, "-> " ++ file ++ ":" ++ error.position.render], true⟩) ∧
      (error.fault ≠ .emptyInput →
        ∃ front offender rest indent text,
          source.toList = front ++ offender :: rest ∧
          error.position = Position.ofOffset source.toList front.length ∧
          Text.line? source.toList error.position.line = some (indent ++ text) ∧
          (∀ c ∈ indent, Diagnostic.isIndent c = true) ∧
          (∀ c ∈ text.head?, Diagnostic.isIndent c = false) ∧
          indent.length < error.position.column ∧
          Diagnostic.caretColumn error.position.column (indent ++ text) =
            error.position.column - indent.length ∧
          (Diagnostic.caretColumn error.position.column (indent ++ text) ≤ Diagnostic.widest →
            ∃ rule : List Char,
              Diagnostic.ofError error source file =
                ⟨[Diagnostic.title error.fault, "-> " ++ file ++ ":" ++ error.position.render,
                  Diagnostic.margin error.position.line,
                  String.ofList (Diagnostic.numbered error.position.line (Text.trimEnd text)),
                  String.ofList (rule ++ ['^'])], true⟩ ∧
              '^' ∉ rule ∧
              (Diagnostic.numbered error.position.line text).drop rule.length =
                Text.dropReturn ((offender :: rest).takeWhile (· != '\n')) ∧
              ((Diagnostic.numbered error.position.line (Text.trimEnd text))[rule.length]? =
                  some offender ∨
                (Diagnostic.numbered error.position.line (Text.trimEnd text)).length ≤
                    rule.length ∧
                  ∀ c ∈ (offender :: rest).takeWhile (· != '\n'),
                    Text.isWhiteSpace c = true))) := by
  constructor
  · intro hfault
    rcases tokenize_eq_error_cases h with ⟨-, rfl⟩ | ⟨n, hstrict⟩
    · rfl
    · exact absurd hfault (Cursor.fault_ne_emptyInput_of_strict hstrict)
  · intro hfault
    obtain ⟨front, offender, rest, htext, hplace, hblank⟩ := exists_offender h hfault
    obtain ⟨indent, text, hline, hindent, hhead, hbehind, hget, hdrop⟩ :=
      Diagnostic.exists_indent front hblank rest
    have hcolumn : error.position.column = (Position.start.advance front).column + 1 := by
      rw [hplace]
      rfl
    have hlineOf : Text.line? source.toList error.position.line = some (indent ++ text) := by
      rw [htext, hplace]
      exact hline
    have hafter : indent.length < error.position.column := by omega
    have hcaret := Diagnostic.caretColumn_of_indent hindent hhead hafter
    refine ⟨front, offender, rest, indent, text, htext, ?_, hlineOf, hindent, hhead, hafter,
      hcaret, ?_⟩
    · rw [htext, ← Position.right_advance_eq_ofOffset, hplace]
    · intro hwidth
      obtain ⟨rule, hrule, hnot, hlength⟩ := Diagnostic.exists_rule error.position.line
        (Diagnostic.caretColumn error.position.column (indent ++ text))
      have hinside : Diagnostic.caretColumn error.position.column (indent ++ text) - 1 =
          (Position.start.advance front).column - indent.length := by
        omega
      rw [hinside] at hlength
      refine ⟨rule, ?_, hnot, ?_, ?_⟩
      · rw [Diagnostic.ofError_of_line file hlineOf hindent hhead hwidth, hrule]
      · rw [hlength, Diagnostic.drop_numbered, hdrop]
      · rw [hlength]
        rcases Diagnostic.getElem?_numbered_trimEnd error.position.line hget with
          hstays | ⟨hends, hwhite⟩
        · exact Or.inl hstays
        · rw [hdrop] at hwhite
          exact Or.inr ⟨hends, Text.isWhiteSpace_of_dropReturn hwhite⟩

/-- An indented word with two characters of white space behind it.  The first
of them is no blank. -/
def trailingSource : String := "x\n \ty\u00a0 "

/-- The caret of `trailingSource` is one place behind the line above it, since
all that is left of the line of the text from there on is white space. -/
theorem caret_of_trailingSource :
    tokenize trailingSource = .error ⟨.unrecognizedCharacter '\u00a0', ⟨2, 4⟩⟩ ∧
      Diagnostic.ofError ⟨.unrecognizedCharacter '\u00a0', ⟨2, 4⟩⟩ trailingSource "a.cs" =
        ⟨["Error: UnrecognizedCharacter", "-> a.cs:2:4", "  |", "2 | y", "  | -^"], true⟩ ∧
      ∃ front offender rest, trailingSource.toList = front ++ offender :: rest ∧
        ⟨2, 4⟩ = Position.ofOffset trailingSource.toList front.length ∧
        ∀ c ∈ (offender :: rest).takeWhile (· != '\n'), Text.isWhiteSpace c = true := by
  have hfails : tokenize trailingSource =
      .error ⟨.unrecognizedCharacter '\u00a0', ⟨2, 4⟩⟩ := by
    decide +kernel
  have hlines : Diagnostic.ofError ⟨.unrecognizedCharacter '\u00a0', ⟨2, 4⟩⟩ trailingSource
      "a.cs" =
        ⟨["Error: UnrecognizedCharacter", "-> a.cs:2:4", "  |", "2 | y", "  | -^"], true⟩ := by
    decide +kernel
  obtain ⟨front, offender, rest, indent, text, htext, hplace, hline, -, -, -, hcaret, hshows⟩ :=
    (caret_of_tokenize "a.cs" hfails).2 (by decide)
  obtain ⟨rule, hfive, -, -, hbelow⟩ := hshows (by
    rw [hcaret]
    exact (Nat.sub_le _ _).trans (by decide))
  rw [hlines] at hfive
  simp only [Diagnostic.mk.injEq, List.cons.injEq, and_true] at hfive
  obtain ⟨-, -, -, hfourth, hfifth⟩ := hfive
  have hlength : rule.length = 5 := by
    have h := congrArg (List.length ∘ String.toList) hfifth
    simp only [Function.comp_apply, String.toList_ofList, List.length_append] at h
    exact Nat.succ.inj h.symm
  rw [← String.toList_ofList (l := Diagnostic.numbered _ _), ← hfourth, hlength] at hbelow
  refine ⟨hfails, hlines, front, offender, rest, htext, hplace, ?_⟩
  rcases hbelow with hstands | ⟨-, hwhite⟩
  · exact absurd hstands (by simp)
  · exact hwhite

end SharpLexer
