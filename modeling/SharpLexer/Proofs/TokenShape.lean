import SharpLexer.Proofs.Documentation
import SharpLexer.Proofs.FloatNumeral
import SharpLexer.Proofs.OperatorRun

/-!
# The shape of tokens

Only a number has a value, only a string or the end mark has an empty lexeme, and only a
string has a newline in it.  Apart from strings, the classes of tokens share no lexeme, so
a lexeme tells the kind and the value of its token.

* `Token.Sound` says which tokens there are, and `Item.sound_of_outcome` that every item
  makes one of them.
* `Token.readAlone` is what a text is read as when nothing stands behind it.
  `Item.readAlone_lexeme` says that the token of an item is what its own lexeme is read as.
* `token_of_ofSource` puts these together for every run.
-/

namespace SharpLexer

/-! ## Numbers -/

/-- A value is an integer where the literal has no point, and a float where it has one. -/
theorem Number.value_of_read {literal : List Char} {value : Literal}
    (h : read literal = .ok value) :
    (points literal = 0 ∧ ∃ v : Int64, value = .int v ∧ 0 ≤ v.toInt) ∨
      (points literal = 1 ∧
        ∃ x : Binary64, value = .float x ∧ x.isFinite = true ∧ x.isNegative = false) := by
  simp only [read] at h
  split at h
  · next hpoints =>
    split at h
    · next hvalue =>
      obtain rfl := Except.ok.inj h
      refine Or.inl ⟨hpoints, _, rfl, ?_⟩
      rw [Int64.toInt_ofNat_of_lt hvalue]
      exact Int.natCast_nonneg _
    · simp at h
  · split at h
    · next hpoints =>
      split at h
      · next hfinite =>
        obtain rfl := Except.ok.inj h
        exact Or.inr ⟨hpoints, _, rfl, hfinite, (Binary64.magnitude_ofRatio _ _).2⟩
      · simp at h
    · simp at h

/-! ## Which tokens there are -/

namespace Token

/-- What holds of every token of a text. -/
structure Sound (token : Token) : Prop where
  /-- Numbers have a value, and nothing else has. -/
  literal_isSome : token.literal?.isSome = true ↔ token.kind = .number
  /-- An integer is no less than zero, and a float is finite and has no sign. -/
  literal_cases : ∀ value, token.literal? = some value →
    (token.lexeme.toList.count '.' = 0 ∧ ∃ v : Int64, value = .int v ∧ 0 ≤ v.toInt) ∨
      (token.lexeme.toList.count '.' = 1 ∧
        ∃ x : Binary64, value = .float x ∧ x.isFinite = true ∧ x.isNegative = false)
  lexeme_empty : token.lexeme.toList = [] → token.kind = .eof ∨ token.kind = .stringLiteral
  newline : '\n' ∈ token.lexeme.toList → token.kind = .stringLiteral
  /-- A stray character is of no class that a reader knows. -/
  stray : token.kind = .stray →
    ∃ c, token.lexeme.toList = [c] ∧ Text.isBlank c = false ∧ c.isAlpha = false ∧
      c.isDigit = false ∧ c ≠ '_' ∧ Item.isQuote c = false ∧
      ∀ op ∈ Operator.table, c ∉ op.symbol

theorem sound_plain {kind : Kind} (hnumber : kind ≠ .number) (hstray : kind ≠ .stray)
    {lexeme : List Char} (hempty : lexeme = [] → kind = .eof ∨ kind = .stringLiteral)
    (hnewline : '\n' ∈ lexeme → kind = .stringLiteral) (p : Position) :
    (plain kind lexeme p).Sound where
  literal_isSome := by simpa [plain] using hnumber
  literal_cases := by simp [plain]
  lexeme_empty := by simpa using hempty
  newline := by simpa using hnewline
  stray := fun h => absurd h hstray

/-- A word or an operator is not empty and has no newline in it. -/
theorem sound_of_not_special {kind : Kind} (hkind : kind ∉ Kind.special) {lexeme : List Char}
    (hlexeme : lexeme ≠ []) (hnewline : '\n' ∉ lexeme) (p : Position) :
    (plain kind lexeme p).Sound :=
  sound_plain (Kind.ne_of_not_special hkind (by decide))
    (Kind.ne_of_not_special hkind (by decide)) (fun h => absurd h hlexeme)
    (fun h => absurd h hnewline) p

theorem sound_eof (p : Position) : (eof p).Sound :=
  sound_plain (by decide) (by decide) (fun _ => Or.inl rfl) (by simp) p

end Token

namespace Item

/-- A character that no reader knows is of none of the classes, and in no symbol. -/
theorem classes_of_stray {c : Char} (h : isRecognised c = false) :
    Text.isBlank c = false ∧ c.isAlpha = false ∧ c.isDigit = false ∧ c ≠ '_' ∧
      isQuote c = false ∧ ∀ op ∈ Operator.table, c ∉ op.symbol := by
  simp only [isRecognised, startsWord, Bool.or_eq_false_iff, decide_eq_false_iff_not] at h
  obtain ⟨⟨⟨⟨hblank, hquote⟩, hletter, hunder⟩, hdigit⟩, hstarts⟩ := h
  refine ⟨hblank, hletter, hdigit, hunder, hquote, ?_⟩
  intro op hop hmem
  rw [Operator.starts_of_mem op hop c hmem] at hstarts
  exact absurd hstarts (by decide)

theorem newline_not_mem_word {c : Char} {letters : List Char} (hfirst : startsWord c = true)
    (hletters : ∀ d ∈ letters, continuesWord d = true) : '\n' ∉ c :: letters := by
  intro hmem
  have hgoes : continuesWord '\n' = true := by
    rcases List.mem_cons.1 hmem with rfl | hmem
    · exact continuesWord_of_startsWord hfirst
    · exact hletters '\n' hmem
  exact absurd hgoes (by decide)

/-- Every item makes a sound token, if it makes one. -/
theorem sound_of_outcome {item : Item} (hshape : item.WellFormed) {p : Position}
    {token : Token} (h : item.outcome p = .ok token) : token.Sound := by
  cases hshape with
  | @operator op hop =>
    rw [outcome_operator, Except.ok.injEq] at h
    rw [← h]
    apply Token.sound_of_not_special (Operator.kind_not_special op hop)
      (Operator.symbol_ne_nil op hop)
    intro hmem
    exact absurd (Operator.isBlank_eq_false_of_mem hop hmem) (by decide)
  | word hfirst hletters =>
    rw [outcome_word, Except.ok.injEq] at h
    rw [← h]
    exact Token.sound_of_not_special (Word.kind_not_special _) (by simp)
      (newline_not_mem_word hfirst hletters) p
  | question hfirst hletters =>
    rw [outcome_word, Except.ok.injEq] at h
    rw [← h]
    apply Token.sound_of_not_special (Word.kind_not_special _) (by simp)
    rw [← List.cons_append, List.mem_append, not_or]
    exact ⟨newline_not_mem_word hfirst hletters, by decide⟩
  | @number c digits hfirst hdigits =>
    simp only [outcome] at h
    split at h
    · next value hvalue =>
      obtain rfl := Except.ok.inj h
      have hcount : (Token.number (c :: digits) p value).lexeme.toList = c :: digits := by
        simp [Token.number]
      refine ⟨by simp [Token.number], ?_, by simp [hcount], ?_, by simp [Token.number]⟩
      · intro other hother
        obtain rfl : value = other := Option.some.inj hother
        rw [hcount]
        exact Number.value_of_read hvalue
      · rw [hcount]
        intro hmem
        rcases List.mem_cons.1 hmem with rfl | hmem
        · exact absurd hfirst (by decide)
        · exact absurd rfl (Number.ne_newline_of_continues (hdigits '\n' hmem))
    · simp at h
  | quoted hquote hbody =>
    obtain rfl := Except.ok.inj h
    exact Token.sound_plain (by decide) (by decide) (fun _ => Or.inr rfl) (fun _ => rfl) p
  | @doc body hbody =>
    obtain rfl := Except.ok.inj h
    obtain ⟨hnewline, hslashes⟩ := doc_spec (.doc hbody)
    apply Token.sound_plain (by decide) (by decide)
    · intro hnil
      rw [hnil] at hslashes
      exact absurd hslashes (by decide)
    · intro hmem
      exact absurd (Text.mem_of_mem_dropReturn hmem) hnewline
  | @stray c hstray =>
    obtain rfl := Except.ok.inj h
    have hblank := (classes_of_stray hstray).1
    refine ⟨by simp [Token.plain], by simp [Token.plain], by simp, ?_, ?_⟩
    · intro hmem
      obtain rfl : '\n' = c := by simpa using hmem
      exact absurd hblank (by decide)
    · intro _
      exact ⟨c, by simp, classes_of_stray hstray⟩
  | openQuoted _ _ => simp [outcome] at h
  | openBlock _ => simp [outcome] at h

end Item

/-! ## A lexeme on its own -/

/-- The kind and the value of what a text is read as when nothing stands behind it. -/
def Token.readAlone : List Char → Option (Kind × Option Literal)
  | [] => some (.eof, none)
  | c :: rest =>
    match (Item.cut c rest).1.outcome Position.start with
    | .ok token => some (token.kind, token.literal?)
    | .error _ => none

namespace Item

/-- The end of the text goes on with no item. -/
theorem stops_nil {item : Item} (hshape : item.WellFormed) : item.Stops [] := by
  cases hshape with
  | @operator op hop =>
    obtain ⟨-, hline, hblock⟩ := Operator.symbol_spec op hop
    refine ⟨?_, by rwa [List.append_nil], by rwa [List.append_nil]⟩
    intro other _ hfits
    rw [List.append_nil] at hfits
    exact hfits.length_le
  | word _ _ | question _ _ => exact Or.inr (by simp)
  | openQuoted _ _ | openBlock _ => rfl
  | quoted _ _ | stray _ => trivial
  | number _ _ | doc _ => exact fun c hc => absurd hc (by simp)

theorem readAlone_text {item : Item} (hshape : item.WellFormed) {p : Position} {token : Token}
    (h : item.outcome p = .ok token) :
    Token.readAlone item.text = some (token.kind, token.literal?) := by
  obtain ⟨c, rest, htext⟩ := List.exists_cons_of_ne_nil (text_ne_nil_of_wellFormed hshape)
  have hcut : cut c rest = (item, []) :=
    cut_unique hshape (stops_nil hshape) (by rw [htext, List.append_nil])
  obtain ⟨again, hagain, hkind, -, hliteral⟩ := Token.exists_agrees h Position.start
  simp only [htext, Token.readAlone, hcut, hagain, hkind, hliteral]

/-- What an item makes is told by its lexeme, unless it is a string. -/
theorem readAlone_lexeme {item : Item} (hshape : item.WellFormed) {p : Position} {token : Token}
    (h : item.outcome p = .ok token) (hstring : token.kind ≠ .stringLiteral) :
    Token.readAlone token.lexeme.toList = some (token.kind, token.literal?) := by
  rcases ok_cases hshape h with
    ⟨-, -, -, hlexeme⟩ | ⟨quote, body, -, rfl⟩ | ⟨text, rfl, rfl⟩ | ⟨c, rfl, rfl⟩
  · rw [hlexeme]
    exact readAlone_text hshape h
  · exact absurd rfl hstring
  · -- the carriage return that is dropped does not make a comment of another kind
    obtain ⟨hnewline, body, hbody⟩ := doc_spec hshape
    have hkept : '\n' ∉ body := by
      intro hmem
      apply hnewline
      apply Text.mem_of_mem_dropReturn
      rw [← hbody]
      exact List.mem_append_right _ hmem
    have hagain : (doc ('/' :: '/' :: '/' :: body)).outcome p =
        .ok (.plain .docComment (Text.dropReturn ('/' :: '/' :: '/' :: body)) p) := rfl
    have hread := readAlone_text (.doc hkept) hagain
    rw [Token.toList_lexeme_plain, ← hbody]
    exact hread
  · rw [Token.toList_lexeme_plain]
    exact readAlone_text hshape h

end Item

/-! ## Every run -/

/-- What is read at any place is sound, and told by its lexeme. -/
theorem Cursor.token_next {c : Cursor} {token : Token} (h : c.next.value = .ok token) :
    token.Sound ∧ (token.kind ≠ .stringLiteral →
      Token.readAlone token.lexeme.toList = some (token.kind, token.literal?)) := by
  rcases c.next_cases with ⟨gap, -, -, hnext⟩ | ⟨gap, item, tail, -, hshape, -, -, hnext⟩
  · obtain rfl : Token.eof c.endPlace = token := by
      rw [hnext] at h
      exact Except.ok.inj h
    exact ⟨Token.sound_eof _, fun _ => rfl⟩
  · rw [hnext] at h
    exact ⟨Item.sound_of_outcome hshape h, Item.readAlone_lexeme hshape h⟩

/-- A run over some text gives the token. -/
def Token.Occurs (token : Token) : Prop :=
  ∃ source opened n, Cursor.ofSource source = .ok opened ∧
    opened.cursor.outcomeAt n = .ok token

/-- Every token that a run gives is sound.  Two tokens that are no strings, of one run or
of two, have the same kind and the same value if they have the same lexeme. -/
theorem sound_of_occurs {token : Token} (h : token.Occurs) :
    token.Sound ∧
      ∀ other : Token, other.Occurs → token.kind ≠ .stringLiteral →
        other.kind ≠ .stringLiteral → token.lexeme = other.lexeme →
        token.kind = other.kind ∧ token.literal? = other.literal? := by
  obtain ⟨source, opened, n, -, hvalue⟩ := h
  obtain ⟨hsound, hread⟩ := Cursor.token_next hvalue
  refine ⟨hsound, ?_⟩
  rintro other ⟨source', opened', n', -, hvalue'⟩ hstring hstring' hlexeme
  obtain ⟨-, hread'⟩ := Cursor.token_next hvalue'
  have hsame : some (token.kind, token.literal?) = some (other.kind, other.literal?) := by
    rw [← hread hstring, ← hread' hstring', hlexeme]
  exact Prod.mk.inj (Option.some.inj hsame)

/-- A number between other tokens. -/
def groupedSource : String := "a=1_0.5;\x00///\r\r"

/-- The same number on its own. -/
def numberSource : String := "\n1_0.5"

/-- The number of `groupedSource` is sound, and so it has the kind and the value of the number
of `numberSource`. -/
theorem sound_in_groupedSource :
    ∃ first second : Token, first.Occurs ∧ second.Occurs ∧ first.lexeme = "1_0.5" ∧
      first.position = ⟨1, 3⟩ ∧ second.lexeme = "1_0.5" ∧ second.position = ⟨2, 1⟩ ∧
      first.Sound ∧ first.kind = second.kind ∧ first.literal? = second.literal? := by
  have hfirst : (Token.number "1_0.5".toList ⟨1, 3⟩ (.float ⟨0x4025000000000000⟩)).Occurs := by
    refine ⟨groupedSource, _, 2, Cursor.ofSource_eq_ok_iff.2 ⟨by decide, rfl⟩, ?_⟩
    decide +kernel
  have hsecond : (Token.number "1_0.5".toList ⟨2, 1⟩ (.float ⟨0x4025000000000000⟩)).Occurs := by
    refine ⟨numberSource, _, 0, Cursor.ofSource_eq_ok_iff.2 ⟨by decide, rfl⟩, ?_⟩
    decide +kernel
  obtain ⟨hsound, hsame⟩ := sound_of_occurs hfirst
  exact ⟨_, _, hfirst, hsecond, rfl, rfl, rfl, rfl, hsound,
    hsame _ hsecond (by decide) (by decide) rfl⟩

end SharpLexer
