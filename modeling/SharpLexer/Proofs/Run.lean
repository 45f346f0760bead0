import SharpLexer.Proofs.Outcome
import SharpLexer.Stream

/-!
# Runs of a cursor

A run is any number of readings, one after the other, over errors and on
past the end of the text.  `Cursor.later` is the cursor after some
readings, and `Cursor.outcomeAt` the outcome of one of them.

There are three groups.

* One reading.  `Cursor.next_cases` says everything that a reading can do:
  it reads a last gap and meets the end, or it reads a gap and an item.
  `Cursor.exists_lastGap_of_isEnd` and `Cursor.exists_item_of_not_isEnd` tell
  the two by the outcome.
  `Cursor.read_item` and `Cursor.read_lastGap` are the same facts read from
  the grammar to the reader.
* Where a cursor stands.  `Cursor.StandsIn` ties a cursor to the text it
  was opened on, and `Cursor.standsIn_later` says that every run keeps it.
* The end of a run.  `Cursor.EndsAfter` counts the outcomes in front of the
  first end mark, and `Cursor.outcomeAt_ended` says that the end mark comes
  again and again.
-/

namespace SharpLexer

namespace Cursor

open Trivia (ClosedGap LastGap gapText)

/-- The cursor after `n` readings. -/
def later (c : Cursor) : Nat → Cursor
  | 0 => c
  | n + 1 => c.next.cursor.later n

/-- The outcome of the reading that `n` others go before. -/
def outcomeAt (c : Cursor) (n : Nat) : Outcome := (c.later n).next.value

/-- The outcomes of the first `n` readings. -/
def outcomesUpTo (c : Cursor) (n : Nat) : List Outcome := (List.range n).map c.outcomeAt

@[simp] theorem later_zero (c : Cursor) : c.later 0 = c := rfl

theorem later_succ (c : Cursor) (n : Nat) : c.later (n + 1) = c.next.cursor.later n := rfl

theorem later_add (c : Cursor) (m n : Nat) : c.later (m + n) = (c.later m).later n := by
  induction m generalizing c with
  | zero => simp
  | succ m ih =>
    rw [Nat.add_right_comm, later_succ, ih, later_succ]

theorem later_succ' (c : Cursor) (n : Nat) : c.later (n + 1) = (c.later n).next.cursor := by
  rw [later_add]
  rfl

theorem outcomeAt_succ (c : Cursor) (n : Nat) :
    c.outcomeAt (n + 1) = c.next.cursor.outcomeAt n := rfl

theorem outcomesUpTo_succ (c : Cursor) (n : Nat) :
    c.outcomesUpTo (n + 1) = c.next.value :: c.next.cursor.outcomesUpTo n := by
  rw [outcomesUpTo, List.range_succ_eq_map, List.map_cons, List.map_map]
  rfl

@[simp] theorem length_outcomesUpTo (c : Cursor) (n : Nat) : (c.outcomesUpTo n).length = n := by
  simp [outcomesUpTo]

/-- A text that holds more than blanks is opened in front of its first
character. -/
theorem ofSource_eq_ok_iff {source : String} {opened : Reading Unit} :
    ofSource source = .ok opened ↔
      source.toList.all Text.isBlank = false ∧
        opened = ⟨(), [.opened source.toList.length], start source.toList⟩ := by
  unfold ofSource
  cases hblank : source.toList.all Text.isBlank with
  | true => simp [hblank]
  | false => simp [hblank, eq_comm]

/-- No other text is refused. -/
theorem ofSource_eq_error_iff {source : String} :
    (∃ error, ofSource source = .error error) ↔ source.toList.all Text.isBlank = true := by
  unfold ofSource
  cases hblank : source.toList.all Text.isBlank with
  | true => simp [hblank]
  | false => simp [hblank]

/-! ## One reading -/

/-- The place of the blank behind the text, where the end mark stands. -/
def endPlace : Cursor → Position
  | within _ rest p => (p.advance rest).right
  | closing p => p
  | ended p => p

theorem read_item {gap : List Trivia} (hgap : ClosedGap gap) {item : Item}
    (hshape : item.WellFormed) {tail : List Char} (hstops : item.Stops tail) (p : Position) :
    read p (gapText gap ++ (item.text ++ tail)) =
      ⟨item.outcome (p.advance (gapText gap)).right,
        Trivia.events p gap ++ item.events (p.advance (gapText gap)).right,
        after (p.advance (gapText gap)) item tail⟩ := by
  have hsplit : Trivia.split (gapText gap ++ (item.text ++ tail)) = (gap, item.text ++ tail) := by
    have hnone := Item.head?_eq_none_of_wellFormed hshape hstops
    rw [Trivia.split_gapText_append hgap, Trivia.split_of_head?_eq_none hnone]
    simp
  rcases htext : item.text ++ tail with _ | ⟨c, rest⟩
  · exact absurd (List.append_eq_nil_iff.1 htext).1 (Item.text_ne_nil_of_wellFormed hshape)
  · have hcut := Item.cut_unique hshape hstops htext.symm
    rw [htext] at hsplit
    simp only [read, hsplit, hcut]

theorem read_lastGap {gap : List Trivia} (hgap : LastGap gap) (p : Position) :
    read p (gapText gap) = finish (Trivia.events p gap) (p.advance (gapText gap)).right := by
  simp only [read, Trivia.split_gapText_of_lastGap hgap]

/-- Behind a closed gap, a reading goes on as if it started there.  Only what
is reported of the gap makes a difference. -/
theorem read_gapText_append {gap : List Trivia} (hgap : ClosedGap gap) (p : Position)
    (rest : List Char) :
    (read p (gapText gap ++ rest)).value = (read (p.advance (gapText gap)) rest).value ∧
      (read p (gapText gap ++ rest)).cursor = (read (p.advance (gapText gap)) rest).cursor := by
  simp only [read, Trivia.split_gapText_append hgap, Trivia.gapText_append,
    Position.advance_append]
  cases (Trivia.split rest).2 <;> exact ⟨rfl, rfl⟩

/-- Everything that a reading can do.  It meets the end behind a last gap,
or it reads an item behind a gap. -/
theorem next_cases (c : Cursor) :
    (∃ gap, LastGap gap ∧ c.unread = gapText gap ∧
      c.next = finish (Trivia.events c.position gap) c.endPlace) ∨
    (∃ gap item tail, ClosedGap gap ∧ item.WellFormed ∧ item.Stops tail ∧
      c.unread = gapText gap ++ (item.text ++ tail) ∧
      c.next =
        ⟨item.outcome (c.position.advance (gapText gap)).right,
          Trivia.events c.position gap ++
            item.events (c.position.advance (gapText gap)).right,
          after (c.position.advance (gapText gap)) item tail⟩) := by
  cases c with
  | within current rest p =>
    have htext := Trivia.gapText_append_split rest
    obtain ⟨hstop, hlast, hclosed⟩ := Trivia.split_spec rest
    rcases hback : (Trivia.split rest).2 with _ | ⟨d, back⟩
    · rw [hback, List.append_nil] at htext
      refine Or.inl ⟨_, hlast, htext.symm, ?_⟩
      simp only [next, read, hback, position, endPlace, htext]
    · rw [hback] at htext hstop
      have hgap := hclosed (by simp [hback])
      obtain ⟨hshape, hstops⟩ := Item.cut_spec hstop
      have hitem := Item.text_append_cut d back
      have hunread : rest = gapText (Trivia.split rest).1 ++
          ((Item.cut d back).1.text ++ (Item.cut d back).2) := by
        rw [hitem, htext]
      refine Or.inr ⟨_, _, _, hgap, hshape, hstops, hunread, ?_⟩
      simp only [next, read, hback, position]
  | closing p => exact Or.inl ⟨[], Or.inl Trivia.closedGap_nil, rfl, rfl⟩
  | ended p => exact Or.inl ⟨[], Or.inl Trivia.closedGap_nil, rfl, rfl⟩

@[simp] theorem isEnd_finish (events : List Event) (p : Position) :
    (finish events p).value.isEnd = true := rfl

/-- A reading that gives the end mark finds a last gap and nothing behind it. -/
theorem exists_lastGap_of_isEnd {c : Cursor} (h : c.next.value.isEnd = true) :
    ∃ gap, LastGap gap ∧ c.unread = gapText gap ∧
      c.next = finish (Trivia.events c.position gap) c.endPlace := by
  rcases c.next_cases with hlast | ⟨gap, item, tail, -, hshape, -, -, hnext⟩
  · exact hlast
  · rw [hnext, Item.isEnd_outcome hshape] at h
    exact absurd h (by decide)

/-- Every other reading finds an item. -/
theorem exists_item_of_not_isEnd {c : Cursor} (h : c.next.value.isEnd = false) :
    ∃ gap item tail, ClosedGap gap ∧ item.WellFormed ∧ item.Stops tail ∧
      c.unread = gapText gap ++ (item.text ++ tail) ∧
      c.next =
        ⟨item.outcome (c.position.advance (gapText gap)).right,
          Trivia.events c.position gap ++
            item.events (c.position.advance (gapText gap)).right,
          after (c.position.advance (gapText gap)) item tail⟩ := by
  rcases c.next_cases with ⟨gap, -, -, hnext⟩ | hitem
  · rw [hnext, isEnd_finish] at h
    exact absurd h (by decide)
  · exact hitem

/-- An outcome that is not the end mark is written as characters of the
text. -/
theorem exists_spells_of_not_isEnd {c : Cursor} (h : c.next.value.isEnd = false) :
    ∃ text, text ≠ [] ∧ c.next.value.Spells text := by
  obtain ⟨gap, item, tail, -, hshape, -, -, hnext⟩ := exists_item_of_not_isEnd h
  refine ⟨item.text, Item.text_ne_nil_of_wellFormed hshape, ?_⟩
  rw [hnext]
  exact Item.spells_outcome hshape _

/-- A stray token is one character that no token starts with. -/
theorem exists_stray_of_kind {c : Cursor} {token : Token} (h : c.next.value = .ok token)
    (hstray : token.kind = .stray) :
    ∃ d, Item.isRecognised d = false ∧ token.lexeme.toList = [d] := by
  have hend : c.next.value.isEnd = false := by simp [h, Token.isEof, hstray]
  obtain ⟨gap, item, tail, -, hshape, -, -, hnext⟩ := exists_item_of_not_isEnd hend
  rw [hnext] at h
  obtain ⟨d, hunknown, -, rfl⟩ := Item.eq_stray_of_outcome hshape h hstray
  exact ⟨d, hunknown, Token.toList_lexeme_plain _ _ _⟩

theorem lexeme_ne_nil_of_stray {c : Cursor} {token : Token} (h : c.next.value = .ok token)
    (hstray : token.kind = .stray) : token.lexeme.toList ≠ [] := by
  obtain ⟨d, -, hlexeme⟩ := exists_stray_of_kind h hstray
  simp [hlexeme]

theorem fault_ne_of_error {c : Cursor} {error : Error} (h : c.next.value = .error error)
    (character : Char) : error.fault ≠ .unrecognizedCharacter character := by
  have hend : c.next.value.isEnd = false := by simp [h]
  obtain ⟨text, -, hspells⟩ := exists_spells_of_not_isEnd hend
  exact (h ▸ hspells).fault_ne character

theorem fault_ne_emptyInput_of_error {c : Cursor} {error : Error}
    (h : c.next.value = .error error) : error.fault ≠ .emptyInput := by
  have hend : c.next.value.isEnd = false := by simp [h]
  obtain ⟨text, -, hspells⟩ := exists_spells_of_not_isEnd hend
  exact (h ▸ hspells).fault_ne_emptyInput

theorem unread_after {item : Item} {tail : List Char} (hstops : item.Stops tail)
    (p : Position) : (after p item tail).unread = tail := by
  unfold after
  split
  · next hopen => exact (Item.eq_nil_of_isOpen hopen hstops).symm
  · rfl

/-- A reading takes something off the front of the text ahead, or nothing. -/
theorem unread_next_suffix (c : Cursor) : c.next.cursor.unread <:+ c.unread := by
  rcases c.next_cases with ⟨gap, -, -, hnext⟩ | ⟨gap, item, tail, -, -, hstops, hunread, hnext⟩
  · rw [hnext]
    exact List.nil_suffix
  · rw [hnext, unread_after hstops, hunread, ← List.append_assoc]
    exact List.suffix_append _ tail

theorem unread_later_suffix (c : Cursor) {m n : Nat} (h : m ≤ n) :
    (c.later n).unread <:+ (c.later m).unread := by
  induction h with
  | refl => exact List.suffix_rfl
  | step _ ih =>
    rw [later_succ']
    exact (unread_next_suffix _).trans ih

/-- What is ahead fixes the reading: an item behind a gap is read as itself. -/
theorem next_eq_of_item {c : Cursor} {gap : List Trivia} (hgap : ClosedGap gap) {item : Item}
    (hshape : item.WellFormed) {tail : List Char} (hstops : item.Stops tail)
    (hunread : c.unread = gapText gap ++ (item.text ++ tail)) :
    c.next =
      ⟨item.outcome (c.position.advance (gapText gap)).right,
        Trivia.events c.position gap ++ item.events (c.position.advance (gapText gap)).right,
        after (c.position.advance (gapText gap)) item tail⟩ := by
  cases c with
  | within current rest p =>
    have hread := read_item hgap hshape hstops p
    rw [← hunread] at hread
    exact hread
  | closing p =>
    have hne := Item.text_ne_nil_of_wellFormed hshape
    simp [unread, hne] at hunread
  | ended p =>
    have hne := Item.text_ne_nil_of_wellFormed hshape
    simp [unread, hne] at hunread

theorem next_of_item {c : Cursor} {gap : List Trivia} (hgap : ClosedGap gap) {item : Item}
    (hshape : item.WellFormed) {tail : List Char} (hstops : item.Stops tail)
    (hunread : c.unread = gapText gap ++ (item.text ++ tail)) :
    (∃ p, c.next.value = item.outcome p) ∧ c.next.cursor.unread = tail := by
  rw [next_eq_of_item hgap hshape hstops hunread]
  exact ⟨⟨_, rfl⟩, unread_after hstops _⟩

/-- With a gap and nothing else ahead, the end mark is read. -/
theorem next_of_lastGap {c : Cursor} {gap : List Trivia} (hgap : LastGap gap)
    (hunread : c.unread = gapText gap) :
    c.next.value = .ok (.eof c.endPlace) ∧ c.next.cursor = ended c.endPlace := by
  cases c with
  | within current rest p =>
    have hread := read_lastGap hgap p
    rw [← hunread] at hread
    simp only [unread] at hread
    rw [next_within, hread]
    exact ⟨rfl, rfl⟩
  | closing p => exact ⟨rfl, rfl⟩
  | ended p => exact ⟨rfl, rfl⟩

/-! ## Where a cursor stands -/

/-- The cursor stands in `text`.  Within the text it stands on the last of
the characters that were read, and behind the text on the end place. -/
def StandsIn (text : List Char) : Cursor → Prop
  | within current rest p =>
    ∃ front, text = front ++ rest ∧ p = Position.start.advance front ∧
      (frame :: front).getLast? = some current
  | closing p => p = (Position.start.advance text).right
  | ended p => p = (Position.start.advance text).right

theorem standsIn_start (text : List Char) : (start text).StandsIn text :=
  ⟨[], rfl, rfl, rfl⟩

theorem endPlace_of_standsIn {text : List Char} {c : Cursor} (h : c.StandsIn text) :
    c.endPlace = (Position.start.advance text).right := by
  cases c with
  | within current rest p =>
    obtain ⟨front, htext, hp, -⟩ := h
    rw [htext, Position.advance_append, ← hp]
    rfl
  | closing p => exact h
  | ended p => exact h

/-- What was read and what was not make up the text. -/
theorem exists_front_of_standsIn {text : List Char} {c : Cursor} (h : c.StandsIn text) :
    ∃ front, text = front ++ c.unread ∧
      (c.unread ≠ [] → c.position = Position.start.advance front) := by
  cases c with
  | within current rest p =>
    obtain ⟨front, htext, hp, -⟩ := h
    exact ⟨front, htext, fun _ => hp⟩
  | closing p => exact ⟨text, by simp [unread], fun hne => absurd rfl hne⟩
  | ended p => exact ⟨text, by simp [unread], fun hne => absurd rfl hne⟩

/-- In front of an item, the place of the cursor counts what was read, and the
gap leads on to the place of the item. -/
theorem exists_front_of_item {text : List Char} {c : Cursor} (h : c.StandsIn text)
    {gap : List Trivia} {item : Item} {tail : List Char} (hshape : item.WellFormed)
    (hunread : c.unread = gapText gap ++ (item.text ++ tail)) :
    ∃ front, text = front ++ c.unread ∧
      c.position.advance (gapText gap) = Position.start.advance (front ++ gapText gap) := by
  obtain ⟨front, htext, hp⟩ := exists_front_of_standsIn h
  have hne : c.unread ≠ [] := by
    rw [hunread]
    simp [Item.text_ne_nil_of_wellFormed hshape]
  exact ⟨front, htext, by rw [hp hne, Position.advance_append]⟩

/-- An outcome that is not the end mark is that of an item of the text, at the
place of its first character. -/
theorem exists_item_of_standsIn {text : List Char} {c : Cursor} (h : c.StandsIn text)
    (hend : c.next.value.isEnd = false) :
    ∃ (front : List Char) (item : Item) (tail : List Char), item.WellFormed ∧
      item.Stops tail ∧ text = front ++ (item.text ++ tail) ∧
      c.next.value = item.outcome (Position.start.advance front).right := by
  obtain ⟨gap, item, tail, -, hshape, hstops, hunread, hnext⟩ := exists_item_of_not_isEnd hend
  obtain ⟨front, htext, hp⟩ := exists_front_of_item h hshape hunread
  refine ⟨front ++ gapText gap, item, tail, hshape, hstops, ?_, ?_⟩
  · rw [htext, hunread, List.append_assoc]
  · rw [hnext, hp]

theorem standsIn_after {text front : List Char} {item : Item} (hshape : item.WellFormed)
    {tail : List Char} (hstops : item.Stops tail) (htext : text = front ++ (item.text ++ tail)) :
    (after (Position.start.advance front) item tail).StandsIn text := by
  unfold after
  split
  · next hopen =>
    have htail : tail = [] := Item.eq_nil_of_isOpen hopen hstops
    rw [StandsIn, htext, htail, List.append_nil, Position.advance_append]
  · refine ⟨front ++ item.text, by simp [htext], by simp, ?_⟩
    have hne := Item.text_ne_nil_of_wellFormed hshape
    rcases hlast : item.text.getLast? with _ | c
    · exact absurd (List.getLast?_eq_none_iff.1 hlast) hne
    · rw [← List.cons_append, List.getLast?_append, hlast]
      rfl

/-- A reading keeps the cursor in its text. -/
theorem standsIn_next {text : List Char} {c : Cursor} (h : c.StandsIn text) :
    c.next.cursor.StandsIn text := by
  rcases c.next_cases with ⟨gap, -, -, hnext⟩ | ⟨gap, item, tail, -, hshape, hstops, hunread, hnext⟩
  · rw [hnext]
    show c.endPlace = (Position.start.advance text).right
    exact endPlace_of_standsIn h
  · obtain ⟨front, htext, hp⟩ := exists_front_of_item h hshape hunread
    rw [hnext]
    show (after (c.position.advance (gapText gap)) item tail).StandsIn text
    rw [hp]
    exact standsIn_after hshape hstops (by rw [htext, hunread, List.append_assoc])

/-- Every run keeps the cursor in its text. -/
theorem standsIn_later {text : List Char} {c : Cursor} (h : c.StandsIn text) (n : Nat) :
    (c.later n).StandsIn text := by
  induction n generalizing c with
  | zero => exact h
  | succ n ih =>
    show (c.next.cursor.later n).StandsIn text
    exact ih (standsIn_next h)

/-! ## The end of a run -/

/-- The first end mark comes behind `n` other outcomes. -/
def EndsAfter (c : Cursor) (n : Nat) : Prop :=
  (∀ i < n, (c.outcomeAt i).isEnd = false) ∧ (c.outcomeAt n).isEnd = true

theorem endsAfter_zero {c : Cursor} (h : c.next.value.isEnd = true) : c.EndsAfter 0 :=
  ⟨fun _ hi => absurd hi (Nat.not_lt_zero _), h⟩

theorem endsAfter_succ {c : Cursor} {n : Nat} (hfirst : c.next.value.isEnd = false)
    (hrest : c.next.cursor.EndsAfter n) : c.EndsAfter (n + 1) := by
  refine ⟨?_, hrest.2⟩
  intro i hi
  cases i with
  | zero => exact hfirst
  | succ i => exact hrest.1 i (by omega)

theorem endsAfter_of_succ {c : Cursor} {n : Nat} (h : c.EndsAfter (n + 1)) :
    c.next.value.isEnd = false ∧ c.next.cursor.EndsAfter n :=
  ⟨h.1 0 (Nat.succ_pos n), fun i hi => h.1 (i + 1) (Nat.succ_lt_succ hi), h.2⟩

/-- A cursor behind the text stays there. -/
theorem outcomeAt_ended (p : Position) (n : Nat) : (ended p).outcomeAt n = .ok (.eof p) := by
  induction n with
  | zero => rfl
  | succ n ih =>
    show (ended p).outcomeAt n = .ok (.eof p)
    exact ih

/-- With nothing but blanks ahead, the end mark is all that comes. -/
theorem outcomeAt_of_blank {c : Cursor} (h : c.unread.all Text.isBlank = true) (n : Nat) :
    c.outcomeAt n = .ok (.eof c.endPlace) := by
  obtain ⟨hvalue, hcursor⟩ := next_of_lastGap (Or.inl (Trivia.closedGap_blanks h))
    (Trivia.gapText_blanks _).symm
  cases n with
  | zero => exact hvalue
  | succ n =>
    rw [outcomeAt_succ, hcursor]
    exact outcomeAt_ended _ n

end Cursor

end SharpLexer
