import SharpLexer.Proofs.Run

/-!
# Gaps and items tile the text

A run takes a text to pieces: a gap, the characters of one outcome, the
next gap, and so on up to the gap in front of the end mark.  Put together
in their order, the pieces are the text again.  So no character is lost,
none is counted twice, and none comes from outside the text.

* `Tiling` is a way to take a text to pieces, with the outcomes in the
  order of their characters.
* `Cursor.exists_tiling` finds the pieces from any cursor, by induction on
  the text ahead.
* `tiling_of_ofSource` is the case of a whole text.
-/

namespace SharpLexer

open Trivia (ClosedGap LastGap gapText)

/-- The text is a row of gaps with the written outcomes between them.  What
lacks its end takes up the rest of the text, so nothing comes behind it. -/
inductive Tiling : List Char → List Outcome → Prop where
  | last {gap : List Trivia} (hgap : LastGap gap) : Tiling (gapText gap) []
  | item {gap : List Trivia} {text rest : List Char} {outcome : Outcome}
      {outcomes : List Outcome} (hgap : ClosedGap gap) (hspells : outcome.Spells text)
      (hclosed : outcome.isOpen = false) (hrest : Tiling rest outcomes) :
      Tiling (gapText gap ++ (text ++ rest)) (outcome :: outcomes)
  | openItem {gap : List Trivia} {text : List Char} {outcome : Outcome} (hgap : ClosedGap gap)
      (hspells : outcome.Spells text) (hopen : outcome.isOpen = true) :
      Tiling (gapText gap ++ text) [outcome]

namespace Cursor

/-- The outcomes up to the first end mark tile the text ahead. -/
theorem exists_tiling (c : Cursor) : ∃ n, c.EndsAfter n ∧ Tiling c.unread (c.outcomesUpTo n) := by
  induction hlength : c.unread.length using Nat.strongRecOn generalizing c with
  | ind length ih =>
    subst hlength
    rcases c.next_cases with
      ⟨gap, hgap, hunread, hnext⟩ | ⟨gap, item, tail, hgap, hshape, hstops, hunread, hnext⟩
    · have hend : c.next.value.isEnd = true := by
        rw [hnext]
        rfl
      refine ⟨0, endsAfter_zero hend, ?_⟩
      rw [hunread]
      exact .last hgap
    · have hvalue : c.next.value = item.outcome (c.position.advance (gapText gap)).right := by
        rw [hnext]
      have hfirst : c.next.value.isEnd = false := by
        rw [hvalue]
        exact Item.isEnd_outcome hshape _
      have hspells : c.next.value.Spells item.text := by
        rw [hvalue]
        exact Item.spells_outcome hshape _
      have htail : c.next.cursor.unread = tail := by
        rw [hnext]
        exact unread_after hstops _
      have hshorter : c.next.cursor.unread.length < c.unread.length := by
        have hpos := List.length_pos_iff.2 (Item.text_ne_nil_of_wellFormed hshape)
        rw [htail, hunread]
        simp only [List.length_append]
        omega
      obtain ⟨n, hends, htiling⟩ := ih _ hshorter c.next.cursor rfl
      cases hopen : item.isOpen with
      | false =>
        refine ⟨n + 1, endsAfter_succ hfirst hends, ?_⟩
        rw [outcomesUpTo_succ, hunread]
        rw [htail] at htiling
        exact .item hgap hspells (by simp [hvalue, hopen]) htiling
      | true =>
        -- the cursor is on the closing blank, so the end mark is next
        obtain rfl : tail = [] := Item.eq_nil_of_isOpen hopen hstops
        have hclosing : c.next.cursor.next.value.isEnd = true := by
          rw [hnext]
          simp [after, hopen]
        refine ⟨1, endsAfter_succ hfirst (endsAfter_zero hclosing), ?_⟩
        rw [outcomesUpTo_succ, hunread, List.append_nil]
        exact .openItem hgap hspells (by simp [hvalue, hopen])

end Cursor

/-- The outcomes of a run over a text, up to the first end mark, tile it. -/
theorem tiling_of_ofSource {source : String} {opened : Reading Unit}
    (h : Cursor.ofSource source = .ok opened) :
    ∃ n, opened.cursor.EndsAfter n ∧
      Tiling source.toList (opened.cursor.outcomesUpTo n) := by
  obtain ⟨-, rfl⟩ := Cursor.ofSource_eq_ok_iff.1 h
  exact Cursor.exists_tiling (Cursor.start source.toList)

/-- A text with both kinds of comments, a number without a value, and a
string that the text ends. -/
def mixedSource : String := "/// d\r\na/*/ b */1.2.3// c\n\"s\"'t"

theorem tiling_of_mixedSource :
    Cursor.ofSource mixedSource = .ok ⟨(), [.opened 31], Cursor.start mixedSource.toList⟩ ∧
      ∃ n, (Cursor.start mixedSource.toList).EndsAfter n ∧
        Tiling mixedSource.toList ((Cursor.start mixedSource.toList).outcomesUpTo n) := by
  have hopened : Cursor.ofSource mixedSource =
      .ok ⟨(), [.opened 31], Cursor.start mixedSource.toList⟩ :=
    Cursor.ofSource_eq_ok_iff.2 ⟨by decide, rfl⟩
  exact ⟨hopened, tiling_of_ofSource hopened⟩

end SharpLexer
