import SharpLexer.Proofs.Run

/-!
# Places by offset

A reader counts lines and columns as it goes along.  A place can also be
read off the whole text: the line is the number of newlines in front of an
offset, and the column the distance from the last of them.  This module
says that both ways agree, for every outcome of every run.

* `Position.ofOffset` reads a place off a text.
* `Position.right_advance_eq_ofOffset` compares it with the counters.
* `Cursor.StartsAt` finds an outcome in the text by its characters alone, and
  `Cursor.StartsAt.eq` says that it finds it at one offset.
* `position_of_ofSource` says where the outcomes of a run stand.
-/

namespace SharpLexer

open Trivia (ClosedGap LastGap gapText)

/-! ## Offsets and counters -/

/-- The offset behind the last newline in front of `offset`, or zero where
there is none. -/
def Text.lineStart (text : List Char) (offset : Nat) : Nat :=
  match (List.range offset).reverse.find? (fun i => text[i]? = some '\n') with
  | some i => i + 1
  | none => 0

/-- The place of the character at `offset`, which counts from zero. -/
def Position.ofOffset (text : List Char) (offset : Nat) : Position :=
  ⟨1 + (text.take offset).count '\n', offset - Text.lineStart text offset + 1⟩

namespace Text

@[simp] theorem lineStart_zero (text : List Char) : lineStart text 0 = 0 := rfl

theorem lineStart_succ (text : List Char) (offset : Nat) :
    lineStart text (offset + 1) =
      if text[offset]? = some '\n' then offset + 1 else lineStart text offset := by
  unfold lineStart
  rw [List.range_succ, List.reverse_concat, List.find?_cons]
  by_cases h : text[offset]? = some '\n' <;> simp [h]

theorem lineStart_le (text : List Char) (offset : Nat) : lineStart text offset ≤ offset := by
  induction offset with
  | zero => simp
  | succ offset ih =>
    rw [lineStart_succ]
    split
    · exact Nat.le_refl _
    · omega

end Text

namespace Position

/-- The counters of a reader that has consumed `front` show the place of
the next character. -/
theorem right_advance_eq_ofOffset (front back : List Char) :
    (start.advance front).right = ofOffset (front ++ back) front.length := by
  induction front using List.reverseRecOn generalizing back with
  | nil => simp [ofOffset, start, right]
  | append_singleton front c ih =>
    have hcount := ih (c :: back)
    have hle := Text.lineStart_le (front ++ c :: back) front.length
    simp only [right, ofOffset, List.take_left, mk.injEq] at hcount
    obtain ⟨hline, hcolumn⟩ := hcount
    have htext : front ++ [c] ++ back = front ++ c :: back := by simp
    have hget : (front ++ c :: back)[front.length]? = some c := by simp
    have htake : (front ++ c :: back).take (front.length + 1) = front ++ [c] := by
      simp [List.take_append]
    rw [htext, advance_append, advance_cons, advance_nil, List.length_append, List.length_singleton,
      ofOffset, Text.lineStart_succ, hget, htake, List.count_append]
    by_cases hc : c = '\n'
    · subst hc
      simp only [step_newline, right, if_true, List.count_singleton_self, mk.injEq]
      omega
    · have hnone : List.count '\n' [c] = 0 := by simp [hc]
      rw [step_of_ne hc, hnone, if_neg (by simpa using hc)]
      simp only [right, mk.injEq]
      omega

/-- A reader stands on the last character that it has consumed, unless that
is a newline. -/
theorem advance_concat_eq_ofOffset (front : List Char) {c : Char} (hc : c ≠ '\n')
    (back : List Char) :
    start.advance (front ++ [c]) = ofOffset (front ++ c :: back) front.length := by
  rw [advance_append, advance_cons, advance_nil, step_of_ne hc]
  exact right_advance_eq_ofOffset front (c :: back)

end Position

/-! ## The places of a run -/

namespace Cursor

/-- One reading of a run.  The end mark stands behind the text, and every
other outcome where its first character does. -/
theorem position_next {text : List Char} {c : Cursor} (h : c.StandsIn text) :
    (c.next.value.isEnd = true ∧
        c.next.value.position = Position.ofOffset text text.length) ∨
      (c.next.value.isEnd = false ∧
        ∃ front gap spelling rest, text = front ++ c.unread ∧
          c.unread = gapText gap ++ (spelling ++ rest) ∧ c.next.cursor.unread = rest ∧
          ClosedGap gap ∧ spelling ≠ [] ∧ c.next.value.Spells spelling ∧
          c.next.value.position = Position.ofOffset text (front ++ gapText gap).length) := by
  rcases c.next_cases with
    ⟨gap, hgap, hunread, hnext⟩ | ⟨gap, item, tail, hgap, hshape, hstops, hunread, hnext⟩
  · left
    have hplace := Position.right_advance_eq_ofOffset text []
    rw [List.append_nil, ← endPlace_of_standsIn h] at hplace
    rw [hnext]
    exact ⟨rfl, hplace⟩
  · right
    obtain ⟨front, htext, hp⟩ := exists_front_of_item h hshape hunread
    have hne : item.text ≠ [] := Item.text_ne_nil_of_wellFormed hshape
    have hplace := Position.right_advance_eq_ofOffset (front ++ gapText gap) (item.text ++ tail)
    have hall : front ++ gapText gap ++ (item.text ++ tail) = text := by
      rw [htext, hunread, List.append_assoc]
    rw [← hp, hall] at hplace
    rw [hnext]
    refine ⟨Item.isEnd_outcome hshape _, front, gap, item.text, tail, htext, hunread,
      unread_after hstops _, hgap, hne, Item.spells_outcome hshape _, ?_⟩
    rw [Item.position_outcome]
    exact hplace

/-- The outcome that `n` others go before is written in characters of `text` that
start at `offset`: behind a gap, and up to what is ahead afterwards. -/
def StartsAt (text : List Char) (c : Cursor) (n offset : Nat) : Prop :=
  ∃ front gap spelling rest, text = front ++ (c.later n).unread ∧
    (c.later n).unread = gapText gap ++ (spelling ++ rest) ∧ (c.later (n + 1)).unread = rest ∧
    ClosedGap gap ∧ spelling ≠ [] ∧ (c.outcomeAt n).Spells spelling ∧
    offset = (front ++ gapText gap).length

/-- An outcome starts at one offset. -/
theorem StartsAt.eq {text : List Char} {c : Cursor} {n offset other : Nat}
    (h : c.StartsAt text n offset) (h' : c.StartsAt text n other) : other = offset := by
  obtain ⟨front, gap, spelling, rest, htext, hunread, hrest, hgap, -, hspells, rfl⟩ := h
  obtain ⟨front', gap', spelling', rest', htext', hunread', hrest', hgap', -, hspells', rfl⟩ := h'
  obtain rfl : rest = rest' := hrest.symm.trans hrest'
  obtain rfl : front = front' := List.append_cancel_right (htext.symm.trans htext')
  have hwhole := hunread.symm.trans hunread'
  rw [← List.append_assoc, ← List.append_assoc] at hwhole
  rw [Outcome.Spells.gapText_eq hgap hgap' hspells hspells' (List.append_cancel_right hwhole)]

/-- An item behind a gap is read at its offset. -/
theorem value_of_item {text : List Char} {c : Cursor} (h : c.StandsIn text)
    {gap : List Trivia} (hgap : ClosedGap gap) {item : Item} (hshape : item.WellFormed)
    {tail : List Char} (hstops : item.Stops tail)
    (hunread : c.unread = gapText gap ++ (item.text ++ tail)) {offset : Nat}
    (hoffset : offset + (item.text ++ tail).length = text.length) :
    c.next.value = item.outcome (Position.ofOffset text offset) := by
  obtain ⟨front, htext, hplace⟩ := exists_front_of_item h hshape hunread
  have hall : text = front ++ gapText gap ++ (item.text ++ tail) := by
    rw [htext, hunread, List.append_assoc]
  have hlength : (front ++ gapText gap).length = offset := by
    have := congrArg List.length hall
    rw [List.length_append] at this
    omega
  rw [next_eq_of_item hgap hshape hstops hunread, hplace,
    Position.right_advance_eq_ofOffset _ (item.text ++ tail), ← hall, hlength]

/-- An item that has its end leaves the cursor on its last character. -/
theorem cursor_of_item {text : List Char} {c : Cursor} (h : c.StandsIn text)
    {gap : List Trivia} (hgap : ClosedGap gap) {item : Item} (hshape : item.WellFormed)
    (hclosed : item.isOpen = false) {tail : List Char} (hstops : item.Stops tail)
    (hunread : c.unread = gapText gap ++ (item.text ++ tail)) {offset : Nat}
    (hoffset : offset + (item.text ++ tail).length = text.length) {last : Char}
    (hlast : item.text.getLast? = some last) (hline : last ≠ '\n') :
    c.next.cursor =
      within last tail (Position.ofOffset text (offset + item.text.length - 1)) := by
  obtain ⟨front, htext, hplace⟩ := exists_front_of_item h hshape hunread
  obtain ⟨init, hinit⟩ := List.getLast?_eq_some_iff.1 hlast
  have hall : text = front ++ gapText gap ++ init ++ last :: tail := by
    rw [htext, hunread, hinit]
    simp
  have hlength : (front ++ gapText gap ++ init).length = offset + item.text.length - 1 := by
    have := congrArg List.length hall
    rw [hinit] at hoffset ⊢
    simp only [List.length_append, List.length_cons, List.length_nil] at this hoffset ⊢
    omega
  have hplaces : (c.position.advance (gapText gap)).advance item.text =
      Position.ofOffset text (offset + item.text.length - 1) := by
    rw [hplace, hinit, ← Position.advance_append, ← List.append_assoc,
      Position.advance_concat_eq_ofOffset _ hline tail, ← hall, hlength, hinit]
  rw [next_eq_of_item hgap hshape hstops hunread]
  show after (c.position.advance (gapText gap)) item tail = _
  rw [after, hclosed, hlast, hplaces]
  rfl

section Ahead

variable {source : String} {opened : Reading Unit} (h : ofSource source = .ok opened) (n : Nat)
include h

/-- What a run has not read yet is the end of the text. -/
theorem unread_later_isSuffix : (opened.cursor.later n).unread <:+ source.toList := by
  obtain ⟨-, rfl⟩ := ofSource_eq_ok_iff.1 h
  obtain ⟨front, htext, -⟩ := exists_front_of_standsIn (standsIn_later (standsIn_start _) n)
  exact ⟨front, htext.symm⟩

/-- The end place of a run is the place behind the text. -/
theorem endPlace_later : (opened.cursor.later n).endPlace =
    Position.ofOffset source.toList source.toList.length := by
  obtain ⟨-, rfl⟩ := ofSource_eq_ok_iff.1 h
  have hplace := Position.right_advance_eq_ofOffset source.toList []
  rw [List.append_nil] at hplace
  rw [endPlace_of_standsIn (standsIn_later (standsIn_start source.toList) n), hplace]

/-- With only blanks ahead, a run gives the end mark behind the text, again and
again. -/
theorem outcomeAt_of_blank_ahead (hblank : (opened.cursor.later n).unread.all Text.isBlank = true)
    (m : Nat) :
    opened.cursor.outcomeAt (n + m) =
      .ok (.eof (Position.ofOffset source.toList source.toList.length)) := by
  rw [outcomeAt, later_add, ← endPlace_later h n]
  exact outcomeAt_of_blank hblank m

variable {gap : List Trivia} (hgap : ClosedGap gap) {item : Item} (hshape : item.WellFormed)
  {tail : List Char} (hstops : item.Stops tail)
  (hunread : (opened.cursor.later n).unread = gapText gap ++ (item.text ++ tail))
include hunread

theorem offset_add_length :
    source.toList.length - (item.text ++ tail).length + (item.text ++ tail).length =
      source.toList.length := by
  have hle := (unread_later_isSuffix h n).length_le
  rw [hunread, List.length_append] at hle
  omega

include hgap hshape hstops

/-- Wherever a run comes to an item behind a gap, that item is read, at its own
offset, and the text behind it is ahead. -/
theorem outcomeAt_of_item :
    opened.cursor.outcomeAt n =
        item.outcome (Position.ofOffset source.toList
          (source.toList.length - (item.text ++ tail).length)) ∧
      (opened.cursor.later (n + 1)).unread = tail := by
  have hoffset := offset_add_length h n hunread
  have htail := (next_of_item hgap hshape hstops hunread).2
  rw [later_succ']
  obtain ⟨-, rfl⟩ := ofSource_eq_ok_iff.1 h
  have hstands := standsIn_later (standsIn_start source.toList) n
  exact ⟨value_of_item hstands hgap hshape hstops hunread hoffset, htail⟩

/-- An item that has its end leaves the cursor of a run on its last character, right in
front of the text that is ahead. -/
theorem later_of_item (hclosed : item.isOpen = false) {last : Char}
    (hlast : item.text.getLast? = some last) (hline : last ≠ '\n') :
    opened.cursor.later (n + 1) =
      within last tail
        (Position.ofOffset source.toList (source.toList.length - tail.length - 1)) := by
  have hoffset := offset_add_length h n hunread
  have hplace : source.toList.length - (item.text ++ tail).length + item.text.length - 1 =
      source.toList.length - tail.length - 1 := by
    rw [List.length_append] at hoffset ⊢
    omega
  rw [later_succ', ← hplace]
  obtain ⟨-, rfl⟩ := ofSource_eq_ok_iff.1 h
  have hstands := standsIn_later (standsIn_start source.toList) n
  exact cursor_of_item hstands hgap hshape hclosed hstops hunread hoffset hlast hline

omit hstops hunread in
/-- An item that lacks its end is read at its own offset, and nothing but the end mark
comes behind it. -/
theorem outcomeAt_of_isOpen (hopen : item.isOpen = true)
    (hrest : (opened.cursor.later n).unread = gapText gap ++ item.text) :
    opened.cursor.outcomeAt n =
        item.outcome (Position.ofOffset source.toList
          (source.toList.length - item.text.length)) ∧
      ∀ m, opened.cursor.outcomeAt (n + 1 + m) =
        .ok (.eof (Position.ofOffset source.toList source.toList.length)) := by
  rw [← List.append_nil item.text] at hrest
  obtain ⟨hvalue, htail⟩ :=
    outcomeAt_of_item h n hgap hshape (Item.stops_nil_of_isOpen hopen) hrest
  rw [List.append_nil] at hvalue
  exact ⟨hvalue, outcomeAt_of_blank_ahead h (n + 1) (by simp [htail])⟩

end Ahead

end Cursor

/-- Every outcome of every run over a text names the place of its first
character, which stands at one offset only, and the end mark names the place
behind the text. -/
theorem position_of_ofSource {source : String} {opened : Reading Unit}
    (h : Cursor.ofSource source = .ok opened) (n : Nat) :
    ((opened.cursor.outcomeAt n).isEnd = true ∧
        (opened.cursor.outcomeAt n).position =
          Position.ofOffset source.toList source.toList.length) ∨
      ((opened.cursor.outcomeAt n).isEnd = false ∧
        ∃ offset, opened.cursor.StartsAt source.toList n offset ∧
          (∀ other, opened.cursor.StartsAt source.toList n other → other = offset) ∧
          (opened.cursor.outcomeAt n).position = Position.ofOffset source.toList offset) := by
  obtain ⟨-, rfl⟩ := Cursor.ofSource_eq_ok_iff.1 h
  have hstands := Cursor.standsIn_later (Cursor.standsIn_start source.toList) n
  rcases Cursor.position_next hstands with hlast |
    ⟨hend, front, gap, spelling, rest, htext, hunread, hrest, hgap, hne, hspells, hplace⟩
  · exact Or.inl hlast
  · rw [← Cursor.later_succ'] at hrest
    have hstarts : (Cursor.start source.toList).StartsAt source.toList n
        (front ++ gapText gap).length :=
      ⟨front, gap, spelling, rest, htext, hunread, hrest, hgap, hne, hspells, rfl⟩
    exact Or.inr ⟨hend, _, hstarts, fun _ => hstarts.eq, hplace⟩

/-- A string over two lines, a comment and a range, and behind them a comment that is
closed and one that is not. -/
def longStringSource : String := "'a\nb' /* c */ 1..2/**//*"

/-- The second outcome of `longStringSource` is the number behind the comment, and the
third one is the error of the comment behind the last that is closed. -/
theorem position_in_longStringSource :
    Cursor.ofSource longStringSource =
        .ok ⟨(), [.opened 24], Cursor.start longStringSource.toList⟩ ∧
      (∃ offset, (Cursor.start longStringSource.toList).StartsAt longStringSource.toList 1 offset ∧
        Position.ofOffset longStringSource.toList offset = ⟨2, 12⟩) ∧
      ∀ offset, (Cursor.start longStringSource.toList).StartsAt longStringSource.toList 2 offset →
        Position.ofOffset longStringSource.toList offset = ⟨2, 20⟩ := by
  have hopened : Cursor.ofSource longStringSource =
      .ok ⟨(), [.opened 24], Cursor.start longStringSource.toList⟩ :=
    Cursor.ofSource_eq_ok_iff.2 ⟨by decide, rfl⟩
  have hnumber : ((Cursor.start longStringSource.toList).outcomeAt 1).position = ⟨2, 12⟩ := by
    decide +kernel
  have hcomment : ((Cursor.start longStringSource.toList).outcomeAt 2).position = ⟨2, 20⟩ := by
    decide +kernel
  refine ⟨hopened, ?_, ?_⟩
  · rcases position_of_ofSource hopened 1 with ⟨hend, -⟩ | ⟨-, offset, hstarts, -, hplace⟩
    · exact absurd hend (by decide +kernel)
    · exact ⟨offset, hstarts, hplace.symm.trans hnumber⟩
  · rcases position_of_ofSource hopened 2 with ⟨hend, -⟩ | ⟨-, offset, -, hone, hplace⟩
    · exact absurd hend (by decide +kernel)
    · intro other hother
      rw [hone other hother, ← hcomment]
      exact hplace.symm

end SharpLexer
