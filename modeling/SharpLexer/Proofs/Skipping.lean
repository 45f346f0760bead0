import SharpLexer.Proofs.Place

/-!
# What a reader skips

In front of an item, a reader skips blanks and comments in any order and as many as
there are.  It stops where none of them stands: at the end of the text, at an item,
at documentation, or at a block comment that is never closed.

* `Trivia.LongestGap` says what is skipped in front of what, without reading anything.
  `Trivia.longestGap_split` says that the reader skips it, and `Trivia.LongestGap.eq`
  that nothing else is one.
* `Item.exists_of_head?_eq_none` finds the item where a gap ends.
* `Cursor.outcomeAt_of_openBlock` and `Cursor.outcomeAt_of_doc` are the two comments
  that are not skipped, and `Cursor.next_of_block` goes on behind one that is.
* `skip_of_ofSource` puts these together for every cursor of every run.
-/

namespace SharpLexer

open Trivia (ClosedGap LastGap gapText)

namespace Trivia

/-! ## The longest gap -/

/-- The pieces of `gap` can be skipped in front of `rest`.  A line comment without a
newline is skipped at the end of the text only. -/
def Skippable (gap : List Trivia) (rest : List Char) : Prop :=
  ClosedGap gap ∨ LastGap gap ∧ rest = []

/-- The text is a gap that can be skipped and the rest behind it, and no gap that can
be skipped goes further. -/
structure LongestGap (text : List Char) (gap : List Trivia) (rest : List Char) : Prop where
  text_eq : text = gapText gap ++ rest
  skippable : Skippable gap rest
  longest : ∀ gap' rest', text = gapText gap' ++ rest' → Skippable gap' rest' → gap' <+: gap

/-- A gap that can be skipped is a part of the gap that is. -/
theorem prefix_split {gap : List Trivia} {rest : List Char} (h : Skippable gap rest) :
    gap <+: (split (gapText gap ++ rest)).1 := by
  rcases h with hclosed | ⟨hlast, rfl⟩
  · rw [split_gapText_append hclosed]
    exact List.prefix_append gap _
  · rw [List.append_nil, split_gapText_of_lastGap hlast]

/-- The reader skips the longest gap. -/
theorem longestGap_split (text : List Char) :
    LongestGap text (split text).1 (split text).2 where
  text_eq := (gapText_append_split text).symm
  skippable := by
    obtain ⟨-, hlast, hclosed⟩ := split_spec text
    by_cases hrest : (split text).2 = []
    · exact Or.inr ⟨hlast, hrest⟩
    · exact Or.inl (hclosed hrest)
  longest := by
    rintro gap' rest' rfl hskip
    exact prefix_split hskip

/-- A closed gap at whose end no piece stands is the longest one. -/
theorem longestGap_of_closedGap {gap : List Trivia} {rest : List Char} (hgap : ClosedGap gap)
    (hstop : head? rest = none) : LongestGap (gapText gap ++ rest) gap rest := by
  have hlongest := longestGap_split (gapText gap ++ rest)
  rwa [split_gapText_append hgap, split_of_head?_eq_none hstop, List.append_nil] at hlongest

/-- A gap that can be skipped up to the end of the text is the longest one. -/
theorem longestGap_of_lastGap {gap : List Trivia} (hgap : LastGap gap) :
    LongestGap (gapText gap) gap [] := by
  have hlongest := longestGap_split (gapText gap)
  rwa [split_gapText_of_lastGap hgap] at hlongest

namespace LongestGap

variable {text : List Char} {gap : List Trivia} {rest : List Char}
  (h : LongestGap text gap rest)
include h

/-- There is one longest gap. -/
theorem eq {gap' : List Trivia} {rest' : List Char} (h' : LongestGap text gap' rest') :
    gap' = gap ∧ rest' = rest := by
  have hle := h.longest gap' rest' h'.text_eq h'.skippable
  have hge := h'.longest gap rest h.text_eq h.skippable
  have hgap : gap' = gap := hle.eq_of_length_le hge.length_le
  have htext := h.text_eq.symm.trans h'.text_eq
  rw [hgap] at htext
  exact ⟨hgap, (List.append_cancel_left htext).symm⟩

/-- No piece stands where the longest gap ends. -/
theorem head?_eq_none : head? rest = none := by
  obtain ⟨-, hrest⟩ := h.eq (longestGap_split text)
  rw [← hrest]
  exact (split_spec text).1

theorem closedGap (hrest : rest ≠ []) : ClosedGap gap :=
  h.skippable.resolve_right fun hend => hrest hend.2

theorem lastGap : LastGap gap := by
  rcases h.skippable with hclosed | ⟨hlast, -⟩
  · exact Or.inl hclosed
  · exact hlast

theorem eq_of_closedGap {gap' : List Trivia} {rest' : List Char} (hgap : ClosedGap gap')
    (hstop : head? rest' = none) (htext : text = gapText gap' ++ rest') :
    gap' = gap ∧ rest' = rest := by
  subst htext
  exact h.eq (longestGap_of_closedGap hgap hstop)

/-- Behind a closed gap at its front, the longest gap goes on with the longest gap
there. -/
theorem exists_back {front : List Trivia} {back : List Char} (hfront : ClosedGap front)
    (htext : text = gapText front ++ back) :
    ∃ gapBack, gap = front ++ gapBack ∧ LongestGap back gapBack rest := by
  obtain ⟨hgap, hrest⟩ := h.eq (longestGap_split text)
  rw [htext, split_gapText_append hfront] at hgap hrest
  refine ⟨(split back).1, hgap.symm, ?_⟩
  rw [← hrest]
  exact longestGap_split back

end LongestGap

/-- Documentation is no piece of a gap. -/
theorem head?_of_doc {rest : List Char} (h : ['/', '/', '/'] <+: rest) : head? rest = none := by
  obtain ⟨body, rfl⟩ := h
  exact head?_eq_none_iff.2 ⟨by decide, by simp, by simp⟩

end Trivia

namespace Item

/-- Where a gap ends in front of a character, an item stands. -/
theorem exists_of_head?_eq_none {rest : List Char} (hne : rest ≠ [])
    (h : Trivia.head? rest = none) :
    ∃ (item : Item) (tail : List Char),
      item.WellFormed ∧ item.Stops tail ∧ rest = item.text ++ tail := by
  obtain ⟨c, back, rfl⟩ := List.exists_cons_of_ne_nil hne
  obtain ⟨hshape, hstops⟩ := cut_spec h
  exact ⟨_, _, hshape, hstops, (text_append_cut c back).symm⟩

/-- Only a block comment without an end is reported as one. -/
theorem eq_openBlock_of_outcome {item : Item} {p q : Position}
    (h : item.outcome p = .error ⟨.unterminatedComment, q⟩) : ∃ body, item = openBlock body := by
  cases item with
  | openBlock body => exact ⟨body, rfl⟩
  | number literal =>
    simp only [outcome] at h
    split at h
    · exact absurd h (by simp)
    · next fault hfault =>
      rcases Number.fault_of_read hfault with rfl | rfl <;> exact absurd h (by simp)
  | _ => exact absurd h (by simp [outcome])

end Item

namespace Cursor

/-- With text ahead, a reading starts at the place of the cursor. -/
theorem next_eq_read {c : Cursor} (hne : c.unread ≠ []) : c.next = read c.position c.unread := by
  cases c with
  | within current rest p => rfl
  | closing p => exact absurd rfl hne
  | ended p => exact absurd rfl hne

variable {source : String} {opened : Reading Unit} (h : ofSource source = .ok opened) (n : Nat)
include h

/-- With a gap and nothing else ahead, a run gives the end mark behind the text. -/
theorem outcomeAt_of_lastGap {gap : List Trivia} (hgap : LastGap gap)
    (hunread : (opened.cursor.later n).unread = gapText gap) :
    opened.cursor.outcomeAt n =
      .ok (.eof (Position.ofOffset source.toList source.toList.length)) := by
  rw [← endPlace_later h n]
  exact (next_of_lastGap hgap hunread).1

/-! ## Comments -/

section Unskipped

variable {gap : List Trivia} (hgap : ClosedGap gap)
include hgap

/-- A block comment without an end is an error at its slash, and nothing but the end
mark comes behind it. -/
theorem outcomeAt_of_openBlock {body : List Char} (hbody : ¬ ['*', '/'] <:+: body)
    (hunread : (opened.cursor.later n).unread = gapText gap ++ '/' :: '*' :: body) :
    opened.cursor.outcomeAt n =
        .error ⟨.unterminatedComment,
          Position.ofOffset source.toList
            (source.toList.length - ('/' :: '*' :: body).length)⟩ ∧
      ∀ m, opened.cursor.outcomeAt (n + 1 + m) =
        .ok (.eof (Position.ofOffset source.toList source.toList.length)) :=
  outcomeAt_of_isOpen h n hgap (.openBlock hbody) rfl hunread

/-- Documentation is a token, up to the end of its line. -/
theorem outcomeAt_of_doc {rest : List Char} (hdoc : ['/', '/', '/'] <+: rest)
    (hunread : (opened.cursor.later n).unread = gapText gap ++ rest) :
    opened.cursor.outcomeAt n =
      .ok (.plain .docComment (Text.dropReturn (rest.takeWhile (· != '\n')))
        (Position.ofOffset source.toList (source.toList.length - rest.length))) := by
  obtain ⟨body, rfl⟩ := hdoc
  obtain ⟨hshape, hstops⟩ := Item.cutDoc_spec body
  have htext : (Item.cutDoc ('/' :: '/' :: '/' :: body)).1.text ++
      (Item.cutDoc ('/' :: '/' :: '/' :: body)).2 = ['/', '/', '/'] ++ body :=
    List.takeWhile_append_dropWhile
  rw [← htext] at hunread
  obtain ⟨hvalue, -⟩ := outcomeAt_of_item h n hgap hshape hstops hunread
  rw [htext] at hvalue
  exact hvalue

end Unskipped

/-- Behind a closed block comment a run goes on as if it stood on the closing slash:
the whole text behind it is ahead. -/
theorem next_of_block {front : List Trivia} {body back : List Char}
    (hgap : ClosedGap (front ++ [.block body]))
    (hunread : (opened.cursor.later n).unread = gapText (front ++ [.block body]) ++ back) :
    let slash := within '/' back
      (Position.ofOffset source.toList (source.toList.length - back.length - 1))
    opened.cursor.outcomeAt n = slash.next.value ∧
      opened.cursor.later (n + 1) = slash.next.cursor := by
  intro slash
  obtain ⟨-, rfl⟩ := ofSource_eq_ok_iff.1 h
  obtain ⟨before, htext, hplace⟩ :=
    exists_front_of_standsIn (standsIn_later (standsIn_start source.toList) n)
  have hclose : gapText (front ++ [.block body]) =
      gapText front ++ '/' :: '*' :: (body ++ ['*']) ++ ['/'] := by
    simp [Trivia.text]
  have hne : ((start source.toList).later n).unread ≠ [] := by simp [hunread, hclose]
  -- the slash stands right in front of the text that is still ahead
  have hslash : ((start source.toList).later n).position.advance
      (gapText (front ++ [.block body])) =
        Position.ofOffset source.toList (source.toList.length - back.length - 1) := by
    have hall : source.toList =
        before ++ (gapText front ++ '/' :: '*' :: (body ++ ['*'])) ++ '/' :: back := by
      rw [htext, hunread, hclose]
      simp
    rw [hplace hne, hclose, ← Position.advance_append, ← List.append_assoc,
      Position.advance_concat_eq_ofOffset _ (by decide) back, ← hall]
    congr 1
    have hlength := congrArg List.length hall
    simp only [List.length_append, List.length_cons] at hlength ⊢
    omega
  have hread := read_gapText_append hgap ((start source.toList).later n).position back
  rw [← hunread, hslash, ← next_eq_read hne] at hread
  rw [later_succ']
  exact hread

/-! ## Behind the longest gap -/

section Behind

variable {gap : List Trivia} {rest : List Char}
  (hlongest : Trivia.LongestGap (opened.cursor.later n).unread gap rest)
include hlongest

theorem outcomeAt_of_rest_eq_nil (hrest : rest = []) :
    opened.cursor.outcomeAt n =
      .ok (.eof (Position.ofOffset source.toList (source.toList.length - rest.length))) := by
  have hunread := hlongest.text_eq
  rw [hrest, List.append_nil] at hunread
  rw [hrest]
  exact outcomeAt_of_lastGap h n hlongest.lastGap hunread

theorem exists_item_of_rest_ne_nil (hrest : rest ≠ []) :
    ∃ (item : Item) (tail : List Char),
      item.WellFormed ∧ item.Stops tail ∧ rest = item.text ++ tail ∧
        opened.cursor.outcomeAt n = item.outcome
          (Position.ofOffset source.toList (source.toList.length - rest.length)) ∧
        (opened.cursor.later (n + 1)).unread = tail := by
  obtain ⟨item, tail, hshape, hstops, rfl⟩ :=
    Item.exists_of_head?_eq_none hrest hlongest.head?_eq_none
  obtain ⟨hvalue, htail⟩ :=
    outcomeAt_of_item h n (hlongest.closedGap hrest) hshape hstops hlongest.text_eq
  exact ⟨item, tail, hshape, hstops, rfl, hvalue, htail⟩

/-- A block comment that opens where the longest gap ends has no end. -/
theorem outcomeAt_of_rest_open (body : List Char) (hrest : rest = '/' :: '*' :: body) :
    ¬ ['*', '/'] <:+: body ∧
      opened.cursor.outcomeAt n = .error ⟨.unterminatedComment,
        Position.ofOffset source.toList (source.toList.length - rest.length)⟩ ∧
      ∀ m, opened.cursor.outcomeAt (n + 1 + m) =
        .ok (.eof (Position.ofOffset source.toList source.toList.length)) := by
  subst hrest
  obtain ⟨-, -, hnever⟩ := Trivia.head?_eq_none_iff.1 hlongest.head?_eq_none
  have hbody := hnever body rfl
  have hgap := hlongest.closedGap (by simp)
  exact ⟨hbody, outcomeAt_of_openBlock h n hgap hbody hlongest.text_eq⟩

/-- A comment is reported as unterminated just where a block comment opens behind the
longest gap. -/
theorem unterminatedComment_iff :
    (∃ p, opened.cursor.outcomeAt n = .error ⟨.unterminatedComment, p⟩) ↔
      ['/', '*'] <+: rest := by
  constructor
  · rintro ⟨p, herror⟩
    by_cases hrest : rest = []
    · rw [outcomeAt_of_rest_eq_nil h n hlongest hrest] at herror
      exact absurd herror (by simp)
    · obtain ⟨item, tail, -, -, htext, hvalue, -⟩ :=
        exists_item_of_rest_ne_nil h n hlongest hrest
      obtain ⟨body, rfl⟩ := Item.eq_openBlock_of_outcome (hvalue.symm.trans herror)
      exact ⟨body ++ tail, htext.symm⟩
  · rintro ⟨body, htext⟩
    exact ⟨_, (outcomeAt_of_rest_open h n hlongest body htext.symm).2.1⟩

end Behind

end Cursor

/-- Every cursor of every run skips the longest gap ahead of it and reads what stands
behind: the end of the text, or the item there, at its own place.  Where a block comment
opens behind the gap, it has no end and takes up the rest of the text.  Documentation
behind a gap is read, and behind a closed block comment the whole text is ahead. -/
theorem skip_of_ofSource {source : String} {opened : Reading Unit}
    (h : Cursor.ofSource source = .ok opened) (n : Nat) :
    ∃ gap rest, Trivia.LongestGap (opened.cursor.later n).unread gap rest ∧
      let place := Position.ofOffset source.toList (source.toList.length - rest.length)
      (rest = [] → opened.cursor.outcomeAt n = .ok (.eof place)) ∧
      (rest ≠ [] → ∃ (item : Item) (tail : List Char),
        item.WellFormed ∧ item.Stops tail ∧ rest = item.text ++ tail ∧
        opened.cursor.outcomeAt n = item.outcome place ∧
        (opened.cursor.later (n + 1)).unread = tail) ∧
      ((∃ p, opened.cursor.outcomeAt n = .error ⟨.unterminatedComment, p⟩) ↔
        ['/', '*'] <+: rest) ∧
      (∀ body, rest = '/' :: '*' :: body → ¬ ['*', '/'] <:+: body ∧
        opened.cursor.outcomeAt n = .error ⟨.unterminatedComment, place⟩ ∧
        ∀ m, opened.cursor.outcomeAt (n + 1 + m) =
          .ok (.eof (Position.ofOffset source.toList source.toList.length))) ∧
      (∀ front back, ClosedGap front →
        (opened.cursor.later n).unread = gapText front ++ back → ['/', '/', '/'] <+: back →
        front = gap ∧ back = rest ∧
          opened.cursor.outcomeAt n =
            .ok (.plain .docComment (Text.dropReturn (rest.takeWhile (· != '\n'))) place)) ∧
      ∀ front body back, ClosedGap (front ++ [.block body]) →
        (opened.cursor.later n).unread = gapText (front ++ [.block body]) ++ back →
        (∃ gapBack, gap = front ++ [.block body] ++ gapBack ∧
          Trivia.LongestGap back gapBack rest) ∧
        let slash := Cursor.within '/' back
          (Position.ofOffset source.toList (source.toList.length - back.length - 1))
        opened.cursor.outcomeAt n = slash.next.value ∧
          opened.cursor.later (n + 1) = slash.next.cursor := by
  have hlongest := Trivia.longestGap_split (opened.cursor.later n).unread
  generalize (Trivia.split (opened.cursor.later n).unread).1 = gap at hlongest
  generalize (Trivia.split (opened.cursor.later n).unread).2 = rest at hlongest
  refine ⟨gap, rest, hlongest, Cursor.outcomeAt_of_rest_eq_nil h n hlongest,
    Cursor.exists_item_of_rest_ne_nil h n hlongest, Cursor.unterminatedComment_iff h n hlongest,
    Cursor.outcomeAt_of_rest_open h n hlongest, ?_, ?_⟩
  · intro front back hfront htext hdoc
    obtain ⟨rfl, rfl⟩ := hlongest.eq_of_closedGap hfront (Trivia.head?_of_doc hdoc) htext
    exact ⟨rfl, rfl, Cursor.outcomeAt_of_doc h n hfront hdoc htext⟩
  · intro front body back hfront htext
    exact ⟨hlongest.exists_back hfront htext, Cursor.next_of_block h n hfront htext⟩

/-- Comments whose ends lie close, documentation, and a comment that does not close
itself. -/
def nearCommentsSource : String := "/*/*//***/ ///d\n// x\n/*/"

/-- The second outcome of `nearCommentsSource` is the error of its last comment. -/
theorem skip_in_nearCommentsSource :
    Cursor.ofSource nearCommentsSource =
        .ok ⟨(), [.opened 24], Cursor.start nearCommentsSource.toList⟩ ∧
      Trivia.LongestGap ((Cursor.start nearCommentsSource.toList).later 1).unread
        [.blank '\n', .line [' ', 'x'] true] ['/', '*', '/'] ∧
      (Cursor.start nearCommentsSource.toList).outcomeAt 1 =
        .error ⟨.unterminatedComment, ⟨3, 1⟩⟩ ∧
      ∀ m, (Cursor.start nearCommentsSource.toList).outcomeAt (2 + m) = .ok (.eof ⟨3, 4⟩) := by
  have hopened : Cursor.ofSource nearCommentsSource =
      .ok ⟨(), [.opened 24], Cursor.start nearCommentsSource.toList⟩ :=
    Cursor.ofSource_eq_ok_iff.2 ⟨by decide, rfl⟩
  have hgap : ClosedGap [.blank '\n', .line [' ', 'x'] true] := by
    rw [Trivia.closedGap_cons, Trivia.closedGap_cons]
    exact ⟨by simp [Trivia.WellFormed, Text.isBlank], rfl, by simp [Trivia.WellFormed], rfl,
      Trivia.closedGap_nil⟩
  have hunread : ((Cursor.start nearCommentsSource.toList).later 1).unread =
      gapText [.blank '\n', .line [' ', 'x'] true] ++ ['/', '*', '/'] := by
    decide +kernel
  obtain ⟨gap, rest, hlongest, -, -, -, hopen, -⟩ := skip_of_ofSource hopened 1
  obtain ⟨rfl, rfl⟩ := hlongest.eq_of_closedGap hgap (by decide) hunread
  obtain ⟨-, hvalue, hmarks⟩ := hopen ['/'] rfl
  refine ⟨hopened, hlongest, ?_, ?_⟩
  · rw [hvalue]
    decide +kernel
  · intro m
    rw [hmarks m]
    decide +kernel

end SharpLexer
