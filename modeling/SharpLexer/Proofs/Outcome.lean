import SharpLexer.Proofs.LongestMatch

/-!
# What an item comes to

`Item.outcome` makes a token or an error of an item.  This module says what
an outcome keeps of the item.

* `Word.kind_not_special` and `Operator.kind_not_special` keep the kinds of
  words and operators apart from those of the other items.
* `Outcome.Spells` says how a token or an error is written in a text, and
  `Item.spells_outcome` that an item writes its own outcome.
* `Outcome.Spells.gapText_eq` says that an outcome is written in one place: of
  the text up to its end, the gap in front of it and the rest are fixed.
* `Item.isOpen_outcome` and `Item.isEnd_outcome` tell the errors that take
  up the rest of the text, and the end mark, from the other outcomes.
-/

namespace SharpLexer

/-! ## Views of plain tokens -/

namespace Token

variable (kind : Kind) (lexeme : List Char) (p : Position)

@[simp] theorem kind_plain : (plain kind lexeme p).kind = kind := rfl

@[simp] theorem toList_lexeme_plain : (plain kind lexeme p).lexeme.toList = lexeme :=
  String.toList_ofList

@[simp] theorem isEof_plain : (plain kind lexeme p).isEof = decide (kind = .eof) := rfl

@[simp] theorem kind_eof : (eof p).kind = .eof := rfl

@[simp] theorem isEof_eof : (eof p).isEof = true := rfl

end Token

/-! ## Kinds -/

/-- The kinds that neither a word nor an operator has. -/
def Kind.special : List Kind := [.eof, .stray, .docComment, .stringLiteral, .number]

theorem Kind.ne_of_not_special {kind other : Kind} (hkind : kind ∉ special)
    (hother : other ∈ special) : kind ≠ other := by
  intro h
  rw [h] at hkind
  exact hkind hother

theorem Operator.kind_not_special : ∀ op ∈ Operator.table, op.kind ∉ Kind.special := by
  decide +kernel

namespace Word

/-- The kind of a word is that of a type, that of a name, or one of the
table of keywords. -/
theorem kind_cases (word : String) :
    kind word = .typeWord ∨ kind word = .identifier ∨ ∃ entry ∈ keywords, kind word = entry.2 := by
  unfold kind lookup?
  split
  · split
    · exact Or.inl rfl
    · cases hentry : keywords.lookup (fold word) with
      | none => exact Or.inr (Or.inl rfl)
      | some found =>
        obtain ⟨front, back, htable, -⟩ := List.lookup_eq_some_iff.1 hentry
        have hmem : (fold word, found) ∈ keywords := by
          rw [htable]
          simp
        exact Or.inr (Or.inr ⟨(fold word, found), hmem, rfl⟩)
  · exact Or.inr (Or.inl rfl)

theorem kind_not_special (word : String) : kind word ∉ Kind.special := by
  have hkeywords : ∀ entry ∈ keywords, entry.2 ∉ Kind.special := by decide +kernel
  rcases kind_cases word with h | h | ⟨entry, hentry, h⟩
  · rw [h]
    decide
  · rw [h]
    decide
  · rw [h]
    exact hkeywords entry hentry

end Word

/-! ## Numbers -/

/-- The errors of a number hold the characters that were read. -/
theorem Number.fault_of_read {literal : List Char} {fault : Fault}
    (h : Number.read literal = .error fault) :
    fault = .numberOutOfRange (String.ofList literal) ∨
      fault = .malformedNumber (String.ofList literal) := by
  simp only [Number.read] at h
  split at h
  · split at h
    · exact absurd h (by simp)
    · exact Or.inl (Except.error.inj h).symm
  · split at h
    · split at h
      · exact absurd h (by simp)
      · exact Or.inl (Except.error.inj h).symm
    · exact Or.inr (Except.error.inj h).symm

/-! ## Documentation -/

/-- A line loses its carriage return or nothing. -/
theorem Text.dropReturn_cases (text : List Char) :
    text = Text.dropReturn text ∨ text = Text.dropReturn text ++ ['\r'] := by
  unfold Text.dropReturn
  split
  · next hlast => exact Or.inr (List.dropLast_append_getLast? '\r' hlast).symm
  · exact Or.inl rfl

theorem Text.dropReturn_concat (text : List Char) : dropReturn (text ++ ['\r']) = text := by
  simp [dropReturn]

theorem Text.dropReturn_of_getLast? {text : List Char} (h : text.getLast? ≠ some '\r') :
    dropReturn text = text := by
  simp [dropReturn, h]

theorem Text.dropReturn_cons {c : Char} (h : c ≠ '\r') (text : List Char) :
    dropReturn (c :: text) = c :: dropReturn text := by
  rcases text with _ | ⟨d, text⟩
  · simp [dropReturn, h]
  · simp only [dropReturn, List.getLast?_cons_cons, List.dropLast_cons_cons]
    split <;> rfl

/-- Documentation keeps its three slashes. -/
theorem Text.prefix_dropReturn_doc (body : List Char) :
    ['/', '/', '/'] <+: dropReturn ('/' :: '/' :: '/' :: body) := by
  have hslash : '/' ≠ '\r' := by decide
  rw [dropReturn_cons hslash, dropReturn_cons hslash, dropReturn_cons hslash]
  exact ⟨_, rfl⟩

theorem Text.mem_of_mem_dropReturn {c : Char} {text : List Char} (h : c ∈ dropReturn text) :
    c ∈ text := by
  rcases dropReturn_cases text with htext | htext
  · rw [htext]
    exact h
  · rw [htext]
    exact List.mem_append_left _ h

/-! ## Outcomes -/

namespace Outcome

/-- The place that an outcome names. -/
def position : Outcome → Position
  | .ok token => token.position
  | .error error => error.position

/-- The outcome that meets the end of a text. -/
def isEnd : Outcome → Bool
  | .ok token => token.isEof
  | .error _ => false

@[simp] theorem isEnd_ok (token : Token) : isEnd (.ok token) = token.isEof := rfl

@[simp] theorem isEnd_error (error : Error) : isEnd (.error error) = false := rfl

/-- The outcome of a string or a comment that lacks its end. -/
def isOpen : Outcome → Bool
  | .ok _ => false
  | .error error =>
    match error.fault with
    | .unterminatedString _ => true
    | .unterminatedComment => true
    | _ => false

/-- How an outcome is written in a text. -/
inductive Spells (text : List Char) : Outcome → Prop where
  /-- A string stands between two equal quotes. -/
  | string {token : Token} {quote : Char} (hkind : token.kind = .stringLiteral)
      (hquote : Item.isQuote quote = true)
      (htext : text = quote :: (token.lexeme.toList ++ [quote])) : Spells text (.ok token)
  /-- A documentation comment starts with three slashes, and may have a carriage
  return behind it. -/
  | doc {token : Token} (hkind : token.kind = .docComment)
      (hslashes : ['/', '/', '/'] <+: token.lexeme.toList)
      (htext : text = token.lexeme.toList ∨ text = token.lexeme.toList ++ ['\r']) :
      Spells text (.ok token)
  /-- Every other token is its lexeme. -/
  | lexeme {token : Token} (hstring : token.kind ≠ .stringLiteral)
      (hdoc : token.kind ≠ .docComment) (htext : text = token.lexeme.toList) :
      Spells text (.ok token)
  /-- A number that has no value is its literal. -/
  | malformedNumber {literal : String} {p : Position} (htext : text = literal.toList) :
      Spells text (.error ⟨.malformedNumber literal, p⟩)
  | numberOutOfRange {literal : String} {p : Position} (htext : text = literal.toList) :
      Spells text (.error ⟨.numberOutOfRange literal, p⟩)
  /-- What lacks its end is known by its start, and its end is not in it. -/
  | unterminatedString {quote : Char} {body : List Char} {p : Position}
      (hquote : Item.isQuote quote = true) (hbody : quote ∉ body) (htext : text = quote :: body) :
      Spells text (.error ⟨.unterminatedString quote, p⟩)
  | unterminatedComment {body : List Char} {p : Position} (hbody : ¬ ['*', '/'] <:+: body)
      (htext : text = '/' :: '*' :: body) : Spells text (.error ⟨.unterminatedComment, p⟩)

/-- No reading takes a stray character for an error. -/
theorem Spells.fault_ne {text : List Char} {error : Error} (h : Spells text (.error error))
    (c : Char) : error.fault ≠ .unrecognizedCharacter c := by
  cases h <;> exact Fault.noConfusion

/-- What can be read of a text is not the fault of an empty one. -/
theorem Spells.fault_ne_emptyInput {text : List Char} {error : Error}
    (h : Spells text (.error error)) : error.fault ≠ .emptyInput := by
  cases h <;> exact Fault.noConfusion

/-- A lexeme is a part of what it is read from. -/
theorem Spells.lexeme_infix {text : List Char} {token : Token} (h : Spells text (.ok token)) :
    token.lexeme.toList <:+: text := by
  cases h with
  | @string _ quote _ _ htext => exact ⟨[quote], [quote], by simp [htext]⟩
  | doc _ _ htext =>
    rcases htext with htext | htext
    · exact ⟨[], [], by simp [htext]⟩
    · exact ⟨[], ['\r'], by simp [htext]⟩
  | lexeme _ _ htext => exact ⟨[], [], by simp [htext]⟩

/-- The literal that an error holds is what it is read from. -/
theorem Spells.literal_eq {text : List Char} {error : Error} (h : Spells text (.error error))
    {literal : String}
    (hfault : error.fault = .malformedNumber literal ∨ error.fault = .numberOutOfRange literal) :
    literal.toList = text := by
  cases h with
  | malformedNumber htext =>
    rcases hfault with hfault | hfault
    · rw [htext, Fault.malformedNumber.inj hfault]
    · exact Fault.noConfusion hfault
  | numberOutOfRange htext =>
    rcases hfault with hfault | hfault
    · exact Fault.noConfusion hfault
    · rw [htext, Fault.numberOutOfRange.inj hfault]
  | unterminatedString _ _ _ | unterminatedComment _ _ =>
    rcases hfault with hfault | hfault <;> exact Fault.noConfusion hfault

/-! ### One place only -/

section Place

variable {text text' front front' body body' : List Char}

/-- What starts with a slash ends in one way only if a carriage return can stand behind
it. -/
theorem append_ne_append_return {lexeme : List Char} (hslash : ['/'] <+: lexeme)
    (front front' : List Char) : front ++ lexeme ≠ front' ++ (lexeme ++ ['\r']) := by
  intro h
  obtain ⟨before, hbefore⟩ : lexeme <:+ lexeme ++ ['\r'] :=
    List.suffix_of_suffix_length_le ⟨front, h⟩ ⟨front', rfl⟩ (by simp)
  obtain ⟨rest, rfl⟩ := hslash
  obtain ⟨c, rfl⟩ : ∃ c, before = [c] := by
    have hlength := congrArg List.length hbefore
    apply List.length_eq_one_iff.1
    simp only [List.length_append, List.length_singleton] at hlength
    omega
  -- moved by one character, a slash comes to stand in front, and a return is missing
  obtain rfl : c = '/' := (List.cons.inj hbefore).1
  have hcount := congrArg (List.count '\r') hbefore
  simp at hcount

/-- A token ends in front of a given place in one way. -/
theorem Spells.eq_of_ok {token : Token} (h : Spells text (.ok token))
    (h' : Spells text' (.ok token)) (hwhole : front ++ text = front' ++ text') :
    front = front' := by
  have hsame : text.length = text'.length → front = front' := fun hlength =>
    (List.append_inj' hwhole hlength).1
  cases h with
  | string hkind _ htext =>
    cases h' with
    | string _ _ htext' => exact hsame (by simp [htext, htext'])
    | doc hdoc _ _ => exact absurd (hkind.symm.trans hdoc) (by decide)
    | lexeme hstring _ _ => exact absurd hkind hstring
  | doc hkind hslashes htext =>
    have hslash : ['/'] <+: token.lexeme.toList := List.IsPrefix.trans ⟨_, rfl⟩ hslashes
    cases h' with
    | string hstring _ _ => exact absurd (hkind.symm.trans hstring) (by decide)
    | doc _ _ htext' =>
      rcases htext with rfl | rfl
      · rcases htext' with rfl | rfl
        · exact hsame rfl
        · exact absurd hwhole (append_ne_append_return hslash _ _)
      · rcases htext' with rfl | rfl
        · exact absurd hwhole.symm (append_ne_append_return hslash _ _)
        · exact hsame rfl
    | lexeme _ hdoc _ => exact absurd hkind hdoc
  | lexeme hstring hdoc htext =>
    cases h' with
    | string hkind _ _ => exact absurd hkind hstring
    | doc hkind _ _ => exact absurd hkind hdoc
    | lexeme _ _ htext' => exact hsame (by rw [htext, htext'])

/-- An open string starts at the last quote of its kind. -/
theorem eq_of_openQuoted {quote : Char} (hbody : quote ∉ body) (hbody' : quote ∉ body')
    (hwhole : front ++ quote :: body = front' ++ quote :: body') : front = front' := by
  have hreverse : body.reverse ++ quote :: front.reverse =
      body'.reverse ++ quote :: front'.reverse := by
    simpa using congrArg List.reverse hwhole
  obtain ⟨-, hfront⟩ := span_inj (forall_bne_iff.2 (by simpa using hbody)) (by simp)
    (forall_bne_iff.2 (by simpa using hbody')) (by simp) hreverse
  exact List.reverse_inj.1 (List.cons.inj hfront).2

/-- An open comment starts where the gap in front of it cannot go on. -/
theorem eq_of_openBlock {gap gap' : List Trivia} (hgap : Trivia.ClosedGap gap)
    (hgap' : Trivia.ClosedGap gap') (hbody : ¬ ['*', '/'] <:+: body)
    (hbody' : ¬ ['*', '/'] <:+: body')
    (hwhole : Trivia.gapText gap ++ '/' :: '*' :: body =
      Trivia.gapText gap' ++ '/' :: '*' :: body') : gap = gap' := by
  have hstop : ∀ body, ¬ ['*', '/'] <:+: body → Trivia.head? ('/' :: '*' :: body) = none := by
    intro body hbody
    have hnone := Item.head?_eq_none_of_wellFormed (.openBlock hbody) rfl
    rwa [List.append_nil] at hnone
  have hsplit := Trivia.split_gapText_append hgap ('/' :: '*' :: body)
  rw [hwhole, Trivia.split_gapText_append hgap', Trivia.split_of_head?_eq_none (hstop _ hbody),
    Trivia.split_of_head?_eq_none (hstop _ hbody'), List.append_nil, List.append_nil] at hsplit
  exact (congrArg Prod.fst hsplit).symm

/-- Of a text up to the end of an outcome, the gap in front of the outcome is fixed. -/
theorem Spells.gapText_eq {outcome : Outcome} {gap gap' : List Trivia}
    (hgap : Trivia.ClosedGap gap) (hgap' : Trivia.ClosedGap gap') (h : Spells text outcome)
    (h' : Spells text' outcome)
    (hwhole : Trivia.gapText gap ++ text = Trivia.gapText gap' ++ text') :
    Trivia.gapText gap = Trivia.gapText gap' := by
  cases outcome with
  | ok token => exact h.eq_of_ok h' hwhole
  | error error =>
    cases h with
    | malformedNumber htext | numberOutOfRange htext =>
      obtain rfl : text' = text := by
        cases h' with
        | _ htext' => rw [htext, htext']
      exact List.append_cancel_right hwhole
    | unterminatedString _ hbody htext =>
      cases h' with
      | unterminatedString _ hbody' htext' =>
        rw [htext, htext'] at hwhole
        exact eq_of_openQuoted hbody hbody' hwhole
    | unterminatedComment hbody htext =>
      cases h' with
      | unterminatedComment hbody' htext' =>
        rw [htext, htext'] at hwhole
        rw [eq_of_openBlock hgap hgap' hbody hbody' hwhole]

end Place

theorem spells_plain {kind : Kind} (hkind : kind ∉ Kind.special) (lexeme : List Char)
    (p : Position) : Spells lexeme (.ok (.plain kind lexeme p)) :=
  .lexeme (Kind.ne_of_not_special hkind (by decide)) (Kind.ne_of_not_special hkind (by decide))
    (Token.toList_lexeme_plain kind lexeme p).symm

theorem isEnd_plain {kind : Kind} (hkind : kind ∉ Kind.special) (lexeme : List Char)
    (p : Position) : isEnd (.ok (.plain kind lexeme p)) = false := by
  have hne : kind ≠ .eof := Kind.ne_of_not_special hkind (by decide)
  simp [isEnd, hne]

end Outcome

namespace Item

theorem outcome_operator (op : Operator) (p : Position) :
    (operator op).outcome p = .ok (.plain op.kind op.symbol p) := rfl

theorem outcome_word (text : List Char) (p : Position) :
    (word text).outcome p = .ok (.plain (Word.kind (String.ofList text)) text p) := rfl

@[simp] theorem position_outcome (item : Item) (p : Position) :
    Outcome.position (item.outcome p) = p := by
  cases item with
  | number literal =>
    simp only [outcome]
    split <;> rfl
  | _ => rfl

/-- The outcome of an item is written as the item is. -/
theorem spells_outcome {item : Item} (hshape : item.WellFormed) (p : Position) :
    Outcome.Spells item.text (item.outcome p) := by
  cases hshape with
  | @operator op hop =>
    rw [outcome_operator]
    exact Outcome.spells_plain (Operator.kind_not_special op hop) op.symbol p
  | word _ _ | question _ _ =>
    rw [outcome_word]
    exact Outcome.spells_plain (Word.kind_not_special _) _ p
  | @number c digits _ _ =>
    simp only [outcome]
    split
    · exact .lexeme (by simp [Token.number]) (by simp [Token.number])
        (by simp [Token.number, text])
    · next fault hfault =>
      rcases Number.fault_of_read hfault with rfl | rfl
      · exact .numberOutOfRange (by simp [text])
      · exact .malformedNumber (by simp [text])
  | quoted hquote _ => exact .string rfl hquote (by simp [text])
  | @doc body _ =>
    refine .doc rfl ?_ ?_
    · rw [Token.toList_lexeme_plain]
      exact Text.prefix_dropReturn_doc body
    · rw [Token.toList_lexeme_plain]
      exact Text.dropReturn_cases ('/' :: '/' :: '/' :: body)
  | stray _ => exact .lexeme (by simp) (by simp) (by simp [text])
  | openQuoted hquote hbody => exact .unterminatedString hquote hbody rfl
  | openBlock hbody => exact .unterminatedComment hbody rfl

/-- An item that lacks its end is reported as such. -/
@[simp] theorem isOpen_outcome (item : Item) (p : Position) :
    Outcome.isOpen (item.outcome p) = item.isOpen := by
  cases item with
  | number literal =>
    simp only [outcome]
    split
    · rfl
    · next fault hfault =>
      rcases Number.fault_of_read hfault with rfl | rfl <;> rfl
  | _ => rfl

/-- No item makes an end mark. -/
theorem isEnd_outcome {item : Item} (hshape : item.WellFormed) (p : Position) :
    Outcome.isEnd (item.outcome p) = false := by
  cases hshape with
  | @operator op hop =>
    rw [outcome_operator]
    exact Outcome.isEnd_plain (Operator.kind_not_special op hop) op.symbol p
  | word _ _ | question _ _ =>
    rw [outcome_word]
    exact Outcome.isEnd_plain (Word.kind_not_special _) _ p
  | number _ _ =>
    simp only [outcome]
    split <;> rfl
  | _ => rfl

/-- The kind of its token tells the class of an item.  Strings, documentation
and stray characters have kinds of their own, and every other item is its
lexeme. -/
theorem ok_cases {item : Item} (hshape : item.WellFormed) {p : Position} {token : Token}
    (h : item.outcome p = .ok token) :
    (token.kind ≠ .stringLiteral ∧ token.kind ≠ .docComment ∧ token.kind ≠ .stray ∧
        token.lexeme.toList = item.text) ∨
      (∃ quote body, item = quoted quote body ∧ token = .plain .stringLiteral body p) ∨
      (∃ text, item = doc text ∧ token = .plain .docComment (Text.dropReturn text) p) ∨
      (∃ c, item = stray c ∧ token = .plain .stray [c] p) := by
  have hplain : ∀ kind ∉ Kind.special, ∀ lexeme, token = .plain kind lexeme p →
      token.kind ≠ .stringLiteral ∧ token.kind ≠ .docComment ∧ token.kind ≠ .stray ∧
        token.lexeme.toList = lexeme := by
    rintro kind hkind lexeme rfl
    exact ⟨Kind.ne_of_not_special hkind (by decide), Kind.ne_of_not_special hkind (by decide),
      Kind.ne_of_not_special hkind (by decide), by simp⟩
  cases hshape with
  | @operator op hop =>
    rw [outcome_operator, Except.ok.injEq] at h
    exact Or.inl (hplain _ (Operator.kind_not_special op hop) _ h.symm)
  | word _ _ | question _ _ =>
    rw [outcome_word, Except.ok.injEq] at h
    exact Or.inl (hplain _ (Word.kind_not_special _) _ h.symm)
  | number _ _ =>
    simp only [outcome] at h
    split at h
    · obtain rfl := Except.ok.inj h
      exact Or.inl (by simp [Token.number, text])
    · exact absurd h (by simp)
  | quoted _ _ => exact Or.inr (Or.inl ⟨_, _, rfl, (Except.ok.inj h).symm⟩)
  | doc _ => exact Or.inr (Or.inr (Or.inl ⟨_, rfl, (Except.ok.inj h).symm⟩))
  | stray _ => exact Or.inr (Or.inr (Or.inr ⟨_, rfl, (Except.ok.inj h).symm⟩))
  | openQuoted _ _ | openBlock _ => exact absurd h (by simp [outcome])

/-- Only a string makes a token of its kind. -/
theorem eq_quoted_of_outcome {item : Item} (hshape : item.WellFormed) {p : Position}
    {token : Token} (h : item.outcome p = .ok token) (hstring : token.kind = .stringLiteral) :
    ∃ quote, item = quoted quote token.lexeme.toList := by
  rcases ok_cases hshape h with
    ⟨hne, -⟩ | ⟨quote, body, rfl, rfl⟩ | ⟨text, -, rfl⟩ | ⟨c, -, rfl⟩
  · exact absurd hstring hne
  · exact ⟨quote, by simp⟩
  · exact absurd hstring (by simp)
  · exact absurd hstring (by simp)

/-- Only a stray character makes a token of its kind, and names itself. -/
theorem eq_stray_of_outcome {item : Item} (hshape : item.WellFormed) {p : Position}
    {token : Token} (h : item.outcome p = .ok token) (hstray : token.kind = .stray) :
    ∃ c, isRecognised c = false ∧ item = stray c ∧ token = .plain .stray [c] p := by
  rcases ok_cases hshape h with
    ⟨-, -, hne, -⟩ | ⟨quote, body, -, rfl⟩ | ⟨text, -, rfl⟩ | ⟨c, rfl, rfl⟩
  · exact absurd hstray hne
  · exact absurd hstray (by simp)
  · exact absurd hstray (by simp)
  · cases hshape with
    | stray hunknown => exact ⟨c, hunknown, rfl, rfl⟩

end Item

end SharpLexer
