import Mathlib.Data.List.Forall2
import SharpLexer.Proofs.Lookahead
import SharpLexer.Proofs.Tokenize

/-!
# Written tokens are read back

The tokens of a text can be written down one by one, each with a line break
behind it, and read back.  Nothing but their places changes: a string may
take the other quotes, and a documentation comment gets a carriage return
that it loses again.

* `Token.Writes` says which texts a token may be written as, and
  `Token.Lexed.exists_writes` that there always is one.
* `Token.Lexed.reads_back` finds the item that a written token is read as.
* `Cursor.tokens_of_written` goes through a whole list of tokens.
* `tokenize_written` is the statement for the tokens of a text.
-/

namespace SharpLexer

open Trivia (ClosedGap gapText)

/-- The characters that end a line. -/
def lineBreak : List Char := ['\r', '\n']

/-! ## Writing tokens -/

namespace Token

/-- Tokens that differ in nothing but their places. -/
def Agrees (a b : Token) : Prop :=
  a.kind = b.kind ∧ a.lexeme = b.lexeme ∧ a.literal? = b.literal?

/-- The texts that a token may be written as.  A string stands between two
quotes that it does not hold, and every other token is its lexeme. -/
def Writes (token : Token) (text : List Char) : Prop :=
  if token.kind = .stringLiteral then
    ∃ quote, Item.isQuote quote = true ∧ quote ∉ token.lexeme.toList ∧
      text = quote :: (token.lexeme.toList ++ [quote])
  else text = token.lexeme.toList

theorem writes_lexeme {token : Token} (h : token.kind ≠ .stringLiteral) {text : List Char} :
    token.Writes text ↔ text = token.lexeme.toList := by
  rw [Writes, if_neg h]

/-- A word or an operator is written as it is spelled. -/
theorem writes_plain {kind : Kind} (hkind : kind ∉ Kind.special) {lexeme text : List Char}
    {p : Position} {token : Token} (h : plain kind lexeme p = token) :
    token.Writes text ↔ text = lexeme := by
  rw [← h, writes_lexeme (by simpa using Kind.ne_of_not_special hkind (by decide)),
    toList_lexeme_plain]

/-- The outcome of an item is the same at every place. -/
theorem exists_agrees {item : Item} {p : Position} {token : Token}
    (h : item.outcome p = .ok token) (q : Position) :
    ∃ again, item.outcome q = .ok again ∧ token.Agrees again := by
  cases item with
  | number literal =>
    simp only [Item.outcome] at h ⊢
    split at h
    · next value hvalue =>
      obtain rfl := Except.ok.inj h
      exact ⟨_, rfl, rfl, rfl, rfl⟩
    · simp at h
  | openQuoted quote body => simp [Item.outcome] at h
  | openBlock body => simp [Item.outcome] at h
  | _ =>
    obtain rfl := Except.ok.inj h
    exact ⟨_, rfl, rfl, rfl, rfl⟩

/-- In front of a line break, an item is read off `text` that makes the same
token.  What it leaves is the gap in front of the next line. -/
def ReadsBack (token : Token) (text : List Char) : Prop :=
  ∀ rest, ∃ (item : Item) (gap : List Trivia), item.WellFormed ∧ ClosedGap gap ∧
    item.Stops (gapText gap ++ rest) ∧
    text ++ (lineBreak ++ rest) = item.text ++ (gapText gap ++ rest) ∧
    ∀ p, ∃ again, item.outcome p = .ok again ∧ token.Agrees again

/-- An item that a line break ends is read back as itself. -/
theorem readsBack_text {item : Item} (hshape : item.WellFormed) {p : Position} {token : Token}
    (houtcome : item.outcome p = .ok token) (hstops : ∀ rest, item.Stops (lineBreak ++ rest)) :
    token.ReadsBack item.text := by
  intro rest
  have hgap : gapText (lineBreak.map Trivia.blank) = lineBreak := Trivia.gapText_blanks lineBreak
  refine ⟨item, lineBreak.map Trivia.blank, hshape, Trivia.closedGap_blanks (by decide), ?_, ?_,
    exists_agrees houtcome⟩
  · rw [hgap]
    exact hstops rest
  · rw [hgap]

/-- A documentation comment takes in the carriage return and drops it. -/
theorem readsBack_doc {body : List Char} (hbody : '\n' ∉ body) (p : Position) :
    (plain .docComment (Text.dropReturn ('/' :: '/' :: '/' :: body)) p).ReadsBack
      (Text.dropReturn ('/' :: '/' :: '/' :: body)) := by
  intro rest
  have hslash : '/' ≠ '\r' := by decide
  have hnew : '\n' ∉ Text.dropReturn body ++ ['\r'] := by
    intro hmem
    rcases List.mem_append.1 hmem with hmem | hmem
    · exact hbody (Text.mem_of_mem_dropReturn hmem)
    · exact absurd hmem (by decide)
  have hlexeme : Text.dropReturn ('/' :: '/' :: '/' :: body) =
      '/' :: '/' :: '/' :: Text.dropReturn body := by
    rw [Text.dropReturn_cons hslash, Text.dropReturn_cons hslash, Text.dropReturn_cons hslash]
  have hgap : ClosedGap (['\n'].map Trivia.blank) := Trivia.closedGap_blanks (by decide)
  refine ⟨.doc ('/' :: '/' :: '/' :: (Text.dropReturn body ++ ['\r'])), [.blank '\n'], .doc hnew,
    hgap, ?_, ?_, ?_⟩
  · intro c hc
    simpa [Trivia.text] using hc.symm
  · rw [hlexeme]
    simp [Item.text, lineBreak, Trivia.text]
  · intro q
    have hagain : Text.dropReturn ('/' :: '/' :: '/' :: (Text.dropReturn body ++ ['\r'])) =
        Text.dropReturn ('/' :: '/' :: '/' :: body) := by
      rw [hlexeme]
      exact Text.dropReturn_concat ('/' :: '/' :: '/' :: Text.dropReturn body)
    exact ⟨_, rfl, rfl, by simp [plain, hagain], rfl⟩

/-- Every token of a text is read back from every text that it may be
written as. -/
theorem Lexed.reads_back {token : Token} (h : token.Lexed) {text : List Char}
    (hwrites : token.Writes text) : token.ReadsBack text := by
  obtain ⟨item, hshape, ⟨p, hp⟩, hstray⟩ := h
  have hreturn : ∀ rest, ∀ d ∈ (lineBreak ++ rest).head?, d = '\r' := by
    intro rest d hd
    simpa [lineBreak] using hd.symm
  cases hshape with
  | @operator op hop =>
    have htoken := hp
    rw [Item.outcome_operator, Except.ok.injEq] at htoken
    rw [writes_plain (Operator.kind_not_special op hop) htoken] at hwrites
    rw [hwrites]
    exact readsBack_text (.operator hop) hp fun rest =>
      Item.stops_operator_of_blank hop (by decide) ('\n' :: rest)
  | @word c letters hfirst hletters =>
    have htoken := hp
    rw [Item.outcome_word, Except.ok.injEq] at htoken
    rw [writes_plain (Word.kind_not_special _) htoken] at hwrites
    rw [hwrites]
    apply readsBack_text (.word hfirst hletters) hp
    intro rest
    right
    intro d hd
    rw [hreturn rest d hd]
    decide
  | @question c letters hfirst hletters =>
    have htoken := hp
    rw [Item.outcome_word, Except.ok.injEq] at htoken
    rw [writes_plain (Word.kind_not_special _) htoken] at hwrites
    rw [hwrites]
    exact readsBack_text (.question hfirst hletters) hp fun _ => Or.inl (by simp)
  | @number c digits hfirst hdigits =>
    have hkind : token.kind = .number ∧ token.lexeme.toList = c :: digits := by
      simp only [Item.outcome] at hp
      split at hp
      · obtain rfl := Except.ok.inj hp
        exact ⟨rfl, by simp [Token.number]⟩
      · simp at hp
    rw [writes_lexeme (by rw [hkind.1]; decide), hkind.2] at hwrites
    subst hwrites
    apply readsBack_text (.number hfirst hdigits) hp
    intro rest d hd
    rw [hreturn rest d hd]
    decide
  | @quoted quote body hquote hbody =>
    obtain rfl := Except.ok.inj hp
    simp only [Writes, plain, if_true, String.toList_ofList] at hwrites
    obtain ⟨other, hother, hnot, rfl⟩ := hwrites
    exact readsBack_text (.quoted hother hnot) (p := p) rfl fun _ => trivial
  | @doc body hbody =>
    obtain rfl := Except.ok.inj hp
    rw [writes_lexeme (by simp [plain])] at hwrites
    obtain rfl : text = Text.dropReturn ('/' :: '/' :: '/' :: body) := by
      simpa [plain] using hwrites
    exact readsBack_doc hbody p
  | stray _ =>
    obtain rfl := Except.ok.inj hp
    exact absurd rfl hstray
  | openQuoted _ _ => simp [Item.outcome] at hp
  | openBlock _ => simp [Item.outcome] at hp

/-- Some quote does not occur in a string, so every token can be written. -/
theorem Lexed.exists_writes {token : Token} (h : token.Lexed) : ∃ text, token.Writes text := by
  by_cases hstring : token.kind = .stringLiteral
  · obtain ⟨item, hshape, ⟨p, hp⟩, -⟩ := h
    obtain ⟨quote, rfl⟩ := Item.eq_quoted_of_outcome hshape hp hstring
    cases hshape with
    | quoted hquote hbody =>
      refine ⟨quote :: (token.lexeme.toList ++ [quote]), ?_⟩
      rw [Writes, if_pos hstring]
      exact ⟨quote, hquote, hbody, rfl⟩
  · exact ⟨_, (writes_lexeme hstring).2 rfl⟩

end Token

/-! ## Reading everything back -/

namespace Cursor

/-- Written tokens, with a gap in front of them, are read back one by one. -/
theorem tokens_of_written {list : List Token} {texts : List (List Char)}
    (hwrites : List.Forall₂ Token.Writes list texts) (hlexed : ∀ token ∈ list, token.Lexed)
    {c : Cursor} {gap : List Trivia} (hgap : ClosedGap gap)
    (hunread : c.unread = gapText gap ++ texts.flatMap (· ++ lineBreak)) :
    ∃ again p, c.tokens = .ok (again ++ [.eof p]) ∧ List.Forall₂ Token.Agrees list again := by
  induction hwrites generalizing c gap with
  | nil =>
    obtain ⟨hvalue, -⟩ := next_of_lastGap (Or.inl hgap) (by simpa using hunread)
    refine ⟨[], c.endPlace, ?_, .nil⟩
    have hstray : (Token.eof c.endPlace).kind ≠ .stray := by simp
    exact tokens_eq_ok_iff.2 ⟨_, hvalue, hstray, Or.inl ⟨rfl, rfl⟩⟩
  | @cons token text list texts hfirst hrest ih =>
    have hlexedFirst : token.Lexed := hlexed token (by simp)
    obtain ⟨item, behind, hshape, hbehind, hstops, htext, hagain⟩ :=
      hlexedFirst.reads_back hfirst (texts.flatMap (· ++ lineBreak))
    rw [List.flatMap_cons, List.append_assoc, htext] at hunread
    obtain ⟨⟨p, hvalue⟩, hahead⟩ := next_of_item hgap hshape hstops hunread
    obtain ⟨first, hitem, hagrees⟩ := hagain p
    obtain ⟨again, q, htokens, hall⟩ :=
      ih (fun t ht => hlexed t (List.mem_cons_of_mem _ ht)) hbehind hahead
    have hstray : first.kind ≠ .stray := by
      obtain ⟨_, _, _, hstray⟩ := hlexedFirst
      rw [← hagrees.1]
      exact hstray
    have hend : first.isEof = false := Token.Lexed.isEof_eq_false ⟨item, hshape, ⟨p, hitem⟩, hstray⟩
    refine ⟨first :: again, q, ?_, .cons hagrees hall⟩
    exact tokens_eq_ok_iff.2
      ⟨first, hvalue.trans hitem, hstray, Or.inr ⟨hend, _, htokens, rfl⟩⟩

end Cursor

/-- A written token starts with more than a blank. -/
theorem Token.Lexed.not_blank {token : Token} (h : token.Lexed) {text : List Char}
    (hwrites : token.Writes text) (rest : List Char) :
    (text ++ (lineBreak ++ rest)).all Text.isBlank = false := by
  obtain ⟨item, gap, hshape, -, hstops, htext, -⟩ := h.reads_back hwrites rest
  obtain ⟨c, symbol, hitem, hblank⟩ := Item.exists_head_of_wellFormed hshape hstops
  rw [htext, hitem]
  simp [hblank]

/-- The tokens of a text, each written with a line break behind it, are read
back with the same kinds, lexemes and values. -/
theorem tokenize_written {source : String} {tokens : List Token}
    (h : tokenize source = .ok tokens) (hsome : tokens.filter (!·.isEof) ≠ []) :
    (∀ token ∈ tokens, ∃ text, token.Writes text) ∧
      ∀ texts, List.Forall₂ Token.Writes (tokens.filter (!·.isEof)) texts →
        ∃ again,
          tokenize (String.ofList (texts.flatMap (· ++ lineBreak))) = .ok again ∧
            List.Forall₂ Token.Agrees tokens again := by
  obtain ⟨front, p, rfl, hlexed⟩ := Cursor.exists_lexed_of_tokens (tokenize_eq_ok_iff.1 h).2
  have hfilter : (front ++ [Token.eof p]).filter (!·.isEof) = front := by
    have hfront : front.filter (!·.isEof) = front := by
      apply List.filter_eq_self.2
      intro token htoken
      simp [(hlexed token htoken).isEof_eq_false]
    rw [List.filter_append, hfront]
    simp [Token.isEof, Token.eof, Token.plain]
  rw [hfilter] at hsome ⊢
  constructor
  · intro token htoken
    rcases List.mem_append.1 htoken with hmem | hmem
    · exact (hlexed token hmem).exists_writes
    · obtain rfl := List.mem_singleton.1 hmem
      exact ⟨[], (Token.writes_lexeme (by simp [Token.eof, Token.plain])).2 rfl⟩
  · intro texts hwrites
    have hblank : (texts.flatMap (· ++ lineBreak)).all Text.isBlank = false := by
      cases hwrites with
      | nil => exact absurd rfl hsome
      | @cons token text _ texts hfirst _ =>
        rw [List.flatMap_cons, List.append_assoc]
        exact (hlexed token (by simp)).not_blank hfirst _
    obtain ⟨again, q, htokens, hall⟩ := Cursor.tokens_of_written hwrites hlexed
      Trivia.closedGap_nil (c := Cursor.start (texts.flatMap (· ++ lineBreak))) rfl
    refine ⟨again ++ [.eof q], ?_, List.rel_append hall (.cons ⟨rfl, rfl, rfl⟩ .nil)⟩
    exact tokenize_eq_ok_iff.2 ⟨by simpa using hblank, by simpa using htokens⟩

/-- Documentation, and an assignment of a string and a number. -/
def assignmentSource : String := "/// d\r\nx='a\"'+0.5"

/-- The tokens of `assignmentSource`. -/
def assignmentTokens : List Token :=
  [.plain .docComment "/// d".toList ⟨1, 1⟩, .plain .identifier ['x'] ⟨2, 1⟩,
    .plain .assign ['='] ⟨2, 2⟩, .plain .stringLiteral ['a', '"'] ⟨2, 3⟩,
    .plain .plus ['+'] ⟨2, 7⟩, .number "0.5".toList ⟨2, 8⟩ (.float ⟨0x3FE0000000000000⟩),
    .eof ⟨2, 11⟩]

theorem tokenize_written_assignment :
    tokenize assignmentSource = .ok assignmentTokens ∧
      assignmentTokens.filter (!·.isEof) ≠ [] ∧
      (∀ token ∈ assignmentTokens, ∃ text, token.Writes text) ∧
      ∀ texts, List.Forall₂ Token.Writes (assignmentTokens.filter (!·.isEof)) texts →
        ∃ again,
          tokenize (String.ofList (texts.flatMap (· ++ lineBreak))) = .ok again ∧
            List.Forall₂ Token.Agrees assignmentTokens again := by
  have htokens : tokenize assignmentSource = .ok assignmentTokens := by decide +kernel
  have hsome : assignmentTokens.filter (!·.isEof) ≠ [] := by decide +kernel
  exact ⟨htokens, hsome, tokenize_written htokens hsome⟩

end SharpLexer
