import SharpLexer.Proofs.Lines
import SharpLexer.Proofs.Lookahead
import SharpLexer.Proofs.Place

/-!
# Outcomes on their lines

The place of an outcome names a line and a column.  In that line, behind as
many characters as the column says, the outcome is there to be read: a token
or a number shows its characters, and a string or a comment, which may go on
over more lines, at least its opening.  The end mark stands behind the last
line.

* `Outcome.caption` is what an outcome shows on its line.
* `Item.caption_prefix` says that the line of an item starts with it, behind
  whatever stands in front of the item.
* `line_of_ofSource` puts this together for every run over a text.
-/

namespace SharpLexer

open Trivia (ClosedGap LastGap gapText)

/-! ## Captions -/

/-- What an outcome with the given spelling shows on the line of its first
character.  A string shows the quote that opens it and a comment without an
end its two opening characters. -/
def Outcome.caption (spelling : List Char) : Outcome → List Char
  | .ok token => if token.kind = .stringLiteral then spelling.take 1 else token.lexeme.toList
  | .error error =>
    match error.fault with
    | .malformedNumber literal => literal.toList
    | .numberOutOfRange literal => literal.toList
    | .unterminatedString quote => [quote]
    | .unterminatedComment => ['/', '*']
    | .emptyInput => []
    | .unrecognizedCharacter _ => []

namespace Item

theorem isBlank_of_continuesWord {c : Char} (h : continuesWord c = true) :
    Text.isBlank c = false := by
  simp only [continuesWord, Char.isAlphanum, Bool.or_eq_true] at h
  apply (isBlank_eq_false_of_class _).1
  rcases h with (hletter | hdigit) | hline
  · exact Or.inr (Or.inl (by simp [startsWord, hletter]))
  · exact Or.inr (Or.inr hdigit)
  · exact Or.inr (Or.inl (by simp [startsWord, hline]))

theorem isBlank_of_continues {c : Char} (h : Number.continues c = true) :
    Text.isBlank c = false := by
  simp only [Number.continues, Bool.or_eq_true, decide_eq_true_eq] at h
  rcases h with (hdigit | rfl) | rfl
  · exact (isBlank_eq_false_of_class (Or.inr (Or.inr hdigit))).1
  · decide
  · decide

/-- The items that no blank can be a part of. -/
def isSolid : Item → Bool
  | operator _ => true
  | word _ => true
  | number _ => true
  | stray _ => true
  | _ => false

theorem isBlank_of_isSolid {item : Item} (hshape : item.WellFormed) (hsolid : item.isSolid = true) :
    ∀ c ∈ item.text, Text.isBlank c = false := by
  cases hshape with
  | operator hop => exact fun _ => Operator.isBlank_eq_false_of_mem hop
  | word hfirst hletters =>
    refine List.forall_mem_cons.2 ⟨(isBlank_eq_false_of_class (Or.inr (Or.inl hfirst))).1, ?_⟩
    exact fun d hd => isBlank_of_continuesWord (hletters d hd)
  | question hfirst hletters =>
    refine List.forall_mem_cons.2 ⟨(isBlank_eq_false_of_class (Or.inr (Or.inl hfirst))).1,
      List.forall_mem_append.2 ⟨?_, List.forall_mem_singleton.2 (by decide)⟩⟩
    exact fun d hd => isBlank_of_continuesWord (hletters d hd)
  | number hfirst hdigits =>
    refine List.forall_mem_cons.2 ⟨(isBlank_eq_false_of_class (Or.inr (Or.inr hfirst))).1, ?_⟩
    exact fun d hd => isBlank_of_continues (hdigits d hd)
  | stray hstray =>
    simp only [isRecognised, Bool.or_eq_false_iff] at hstray
    simpa [text] using hstray.1.1.1.1
  | _ => exact absurd hsolid (by simp [isSolid])

/-- Such an item shows all its characters. -/
theorem caption_of_isSolid {item : Item} (hshape : item.WellFormed)
    (hsolid : item.isSolid = true) (p : Position) :
    (item.outcome p).caption item.text = item.text := by
  cases hshape with
  | @operator op hop =>
    have hne : op.kind ≠ .stringLiteral :=
      Kind.ne_of_not_special (Operator.kind_not_special op hop) (by decide)
    simp [outcome_operator, Outcome.caption, hne, text]
  | word _ _ | question _ _ =>
    have hne : ∀ word, Word.kind word ≠ .stringLiteral := fun word =>
      Kind.ne_of_not_special (Word.kind_not_special word) (by decide)
    rw [outcome_word, Outcome.caption, Token.kind_plain, if_neg (hne _),
      Token.toList_lexeme_plain, text]
  | @number c digits _ _ =>
    simp only [outcome]
    split
    · simp [Outcome.caption, Token.number, text]
    · next fault hfault =>
      rcases Number.fault_of_read hfault with rfl | rfl <;> simp [Outcome.caption, text]
  | stray _ => simp [outcome, Outcome.caption, text]
  | _ => exact absurd hsolid (by simp [isSolid])

/-- The rest of the line that an item stands on starts with what it shows. -/
theorem caption_prefix {item : Item} (hshape : item.WellFormed) {tail : List Char}
    (hstops : item.Stops tail) (p : Position) :
    (item.outcome p).caption item.text <+:
      Text.dropReturn ((item.text ++ tail).takeWhile (· != '\n')) := by
  have hinLine : ∀ mark, (∀ c ∈ mark, Text.isBlank c = false) → mark <+: item.text →
      mark <+: Text.dropReturn ((item.text ++ tail).takeWhile (· != '\n')) := by
    intro mark hmark hfits
    have hnot : ∀ c, Text.isBlank c = true → c ∉ mark := by
      intro c hblank hmem
      rw [hmark c hmem] at hblank
      exact absurd hblank (by decide)
    exact Text.prefix_dropReturn ⟨hnot _ (by decide), hnot _ (by decide)⟩
      (hfits.trans (List.prefix_append _ _))
  cases hsolid : item.isSolid with
  | true =>
    rw [caption_of_isSolid hshape hsolid]
    exact hinLine _ (isBlank_of_isSolid hshape hsolid) List.prefix_rfl
  | false =>
    -- what may go on behind the line shows its opening only, but a doc comment ends with it
    cases hshape with
    | @quoted quote body hquote _ =>
      have hcaption : ((quoted quote body).outcome p).caption (quoted quote body).text =
          [quote] := by
        simp [outcome, Outcome.caption, text]
      rw [hcaption]
      refine hinLine _ ?_ ⟨_, rfl⟩
      simpa using (isBlank_eq_false_of_class (Or.inl hquote)).1
    | @openQuoted quote body hquote _ =>
      refine hinLine [quote] ?_ ⟨_, rfl⟩
      simpa using (isBlank_eq_false_of_class (Or.inl hquote)).1
    | openBlock _ => exact hinLine ['/', '*'] (by simp [Text.isBlank]) ⟨_, rfl⟩
    | @doc body hbody =>
      have hline : ∀ c ∈ '/' :: '/' :: '/' :: body, (c != '\n') = true :=
        forall_bne_iff.2 (by simpa using hbody)
      have hback : ∀ c ∈ tail.head?, (c != '\n') = false := by
        intro c hc
        simp [hstops c hc]
      rw [text, takeWhile_span hline hback]
      simp [outcome, Outcome.caption]
    | _ => exact absurd hsolid (by simp [isSolid])

end Item

/-! ## The lines of a run -/

namespace Cursor

variable {text : List Char} {c : Cursor}

/-- An outcome stands on the line of its place, behind as many characters as
the column says. -/
theorem line_next (h : c.StandsIn text) (hend : c.next.value.isEnd = false) :
    ∃ front spelling rest line, text = front ++ (spelling ++ rest) ∧
      c.next.value.Spells spelling ∧
      c.next.value.position = Position.ofOffset text front.length ∧
      Text.line? text c.next.value.position.line = some line ∧
      1 ≤ c.next.value.position.column ∧
      c.next.value.caption spelling <+: line.drop (c.next.value.position.column - 1) := by
  obtain ⟨front, item, tail, hshape, hstops, htext, hvalue⟩ := exists_item_of_standsIn h hend
  have hplace := Position.right_advance_eq_ofOffset front (item.text ++ tail)
  obtain ⟨d, rest, hitem, hblank⟩ := Item.exists_head_of_wellFormed hshape hstops
  have hne : (item.text ++ tail).takeWhile (· != '\n') ≠ [] := by
    have hd : d ≠ '\n' := by
      rintro rfl
      exact absurd hblank (by decide)
    simp [hitem, hd]
  obtain ⟨line, hline, hdrop⟩ := Text.exists_line_of_ahead front hne
  rw [hvalue, Item.position_outcome]
  refine ⟨front, item.text, tail, line, htext, Item.spells_outcome hshape _, ?_, ?_, ?_, ?_⟩
  · rw [htext, hplace]
  · rw [htext]
    exact hline
  · exact Nat.succ_pos _
  · show _ <+: line.drop (Position.start.advance front).column
    rw [hdrop]
    exact Item.caption_prefix hshape hstops _

/-- The end mark stands behind the last line, and behind the carriage return
that the line has lost. -/
theorem line_end (h : c.StandsIn text) :
    ∃ line, Text.line? text c.endPlace.line = some line ∧
      (∀ number, (Text.line? text number).isSome = true → number ≤ c.endPlace.line) ∧
      c.endPlace.column =
        line.length + (if text.getLast? = some '\r' then 1 else 0) + 1 := by
  obtain ⟨above, before, hfront, hwhole, hcolumn, hline⟩ := Text.exists_line_at text []
  rw [List.append_nil, List.takeWhile_nil, List.append_nil] at hline
  rw [endPlace_of_standsIn h]
  refine ⟨_, hline, ?_, ?_⟩
  · intro number hnumber
    have hlast := (Text.isSome_line?_iff.1 hnumber).2
    show number ≤ (Position.start.advance text).line
    rw [Position.line_advance]
    show number ≤ 1 + _
    omega
  · have hreturn : before.getLast? = some '\r' ↔ text.getLast? = some '\r' := by
      rcases before with _ | ⟨d, before⟩
      · rw [hfront, List.append_nil]
        rcases hwhole with rfl | hnewline
        · exact Iff.rfl
        · simp [hnewline]
      · rw [hfront, List.getLast?_append_of_ne_nil _ (by simp)]
    have hlength := Text.length_eq_length_dropReturn before
    simp only [hreturn, hcolumn] at hlength
    show (Position.start.advance text).column + 1 = _
    rw [hlength]

end Cursor

/-- Every outcome of every run over a text can be found on the line that its
place names, and the end mark behind the last line. -/
theorem line_of_ofSource {source : String} {opened : Reading Unit}
    (h : Cursor.ofSource source = .ok opened) (n : Nat) :
    ((opened.cursor.outcomeAt n).isEnd = false →
        ∃ front spelling rest line, source.toList = front ++ (spelling ++ rest) ∧
          (opened.cursor.outcomeAt n).Spells spelling ∧
          (opened.cursor.outcomeAt n).position =
            Position.ofOffset source.toList front.length ∧
          Text.line? source.toList (opened.cursor.outcomeAt n).position.line = some line ∧
          1 ≤ (opened.cursor.outcomeAt n).position.column ∧
          (opened.cursor.outcomeAt n).caption spelling <+:
            line.drop ((opened.cursor.outcomeAt n).position.column - 1)) ∧
      ((opened.cursor.outcomeAt n).isEnd = true →
        ∃ line,
          Text.line? source.toList (opened.cursor.outcomeAt n).position.line = some line ∧
          (∀ number, (Text.line? source.toList number).isSome = true →
            number ≤ (opened.cursor.outcomeAt n).position.line) ∧
          (opened.cursor.outcomeAt n).position.column =
            line.length + (if source.toList.getLast? = some '\r' then 1 else 0) + 1) := by
  obtain ⟨-, rfl⟩ := Cursor.ofSource_eq_ok_iff.1 h
  have hstands := Cursor.standsIn_later (Cursor.standsIn_start source.toList) n
  constructor
  · exact Cursor.line_next hstands
  · intro hend
    obtain ⟨gap, hgap, hunread, hnext⟩ := Cursor.exists_lastGap_of_isEnd hend
    have hplace : ((Cursor.start source.toList).outcomeAt n).position =
        ((Cursor.start source.toList).later n).endPlace := by
      rw [Cursor.outcomeAt, hnext]
      rfl
    rw [hplace]
    exact Cursor.line_end hstands

/-- A comment and a string over two lines each, and a carriage return. -/
def threeLinesSource : String := "/*\n*/ 'a\nb'\r"

/-- The string of `threeLinesSource` starts on the second line, and the end mark
stands on the third, which has lost its carriage return. -/
theorem line_of_threeLinesSource :
    Cursor.ofSource threeLinesSource =
        .ok ⟨(), [.opened 12], Cursor.start threeLinesSource.toList⟩ ∧
      (∃ quote line, Item.isQuote quote = true ∧
        Text.line? threeLinesSource.toList 2 = some line ∧ [quote] <+: line.drop 3) ∧
      ∃ line, Text.line? threeLinesSource.toList 3 = some line ∧ line.length = 2 ∧
        ∀ number, (Text.line? threeLinesSource.toList number).isSome = true → number ≤ 3 := by
  have hopened : Cursor.ofSource threeLinesSource =
      .ok ⟨(), [.opened 12], Cursor.start threeLinesSource.toList⟩ :=
    Cursor.ofSource_eq_ok_iff.2 ⟨by decide, rfl⟩
  have hstring : (Cursor.start threeLinesSource.toList).outcomeAt 0 =
      .ok (.plain .stringLiteral ['a', '\n', 'b'] ⟨2, 4⟩) := by
    decide +kernel
  have hmark : (Cursor.start threeLinesSource.toList).outcomeAt 1 = .ok (.eof ⟨3, 4⟩) := by
    decide +kernel
  have hfirst := (line_of_ofSource hopened 0).1
  have hlast := (line_of_ofSource hopened 1).2
  rw [hstring] at hfirst
  rw [hmark] at hlast
  refine ⟨hopened, ?_, ?_⟩
  · obtain ⟨front, spelling, rest, line, -, hspells, -, hline, -, hcaption⟩ := hfirst rfl
    cases hspells with
    | string _ hquote htext =>
      rw [htext] at hcaption
      exact ⟨_, line, hquote, hline, hcaption⟩
    | doc hkind _ _ => exact absurd hkind (by decide)
    | lexeme hkind _ _ => exact absurd rfl hkind
  · obtain ⟨line, hline, hnumbers, hcolumn⟩ := hlast rfl
    have hreturn : threeLinesSource.toList.getLast? = some '\r' := by decide +kernel
    have hlength : 4 = line.length + 1 + 1 := by
      rw [if_pos hreturn] at hcolumn
      exact hcolumn
    exact ⟨line, hline, by omega, hnumbers⟩

end SharpLexer
