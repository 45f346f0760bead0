import Mathlib.Data.List.Infix
import SharpLexer.Position
import SharpLexer.Proofs.Gap
import SharpLexer.Text.Lines

/-!
# The lines of a text and its places

A text is cut into lines at its newlines, and a reader counts lines and
columns as it goes along.  This module says that both come to the same: the
line of a place is the line that the reader is on, and the column counts the
characters of that line.

* `Text.length_pieces`, `Text.head?_pieces` and `Text.pieces_append_newline`
  say how the pieces between the newlines hang together.
* `Text.isSome_line?_iff` says which lines there are, and
  `Text.line?_of_isWhole` which line stands behind some whole lines.
* `Text.exists_line_at` finds the line of a place.
-/

namespace SharpLexer

namespace Text

/-! ## Pieces -/

theorem pieces_ne_nil (text : List Char) : pieces text ≠ [] := by
  cases text with
  | nil => simp
  | cons c text =>
    by_cases hc : c = '\n'
    · subst hc
      simp
    · rw [pieces_cons hc]
      cases pieces text <;> simp [pushFirst]

/-- A character that goes to the first piece does not change how many there
are. -/
theorem length_pushFirst (c : Char) {lines : List (List Char)} (h : lines ≠ []) :
    (pushFirst c lines).length = lines.length := by
  cases lines with
  | nil => exact absurd rfl h
  | cons line rest => rfl

theorem pushFirst_append (c : Char) {lines : List (List Char)} (h : lines ≠ [])
    (more : List (List Char)) : pushFirst c (lines ++ more) = pushFirst c lines ++ more := by
  cases lines with
  | nil => exact absurd rfl h
  | cons line rest => rfl

/-- There is one piece more than there are newlines. -/
theorem length_pieces (text : List Char) : (pieces text).length = text.count '\n' + 1 := by
  induction text with
  | nil => rfl
  | cons c text ih =>
    by_cases hc : c = '\n'
    · subst hc
      rw [pieces_newline, List.length_cons, ih, List.count_cons_self]
    · rw [pieces_cons hc, length_pushFirst c (pieces_ne_nil text), ih, List.count_cons_of_ne hc]

/-- The first piece reaches to the first newline. -/
theorem head?_pieces (text : List Char) :
    (pieces text).head? = some (text.takeWhile (· != '\n')) := by
  induction text with
  | nil => rfl
  | cons c text ih =>
    by_cases hc : c = '\n'
    · subst hc
      simp
    · obtain ⟨line, rest, hpieces⟩ := List.exists_cons_of_ne_nil (pieces_ne_nil text)
      rw [hpieces, List.head?_cons, Option.some.injEq] at ih
      simp [pieces_cons hc, hpieces, pushFirst, ih, hc]

/-- A newline divides the pieces in front of it from those behind it. -/
theorem pieces_append_newline (above below : List Char) :
    pieces (above ++ '\n' :: below) = pieces above ++ pieces below := by
  induction above with
  | nil => rfl
  | cons c above ih =>
    by_cases hc : c = '\n'
    · subst hc
      rw [List.cons_append, pieces_newline, pieces_newline, ih, List.cons_append]
    · rw [List.cons_append, pieces_cons hc, pieces_cons hc, ih,
        pushFirst_append c (pieces_ne_nil above)]

/-! ## Carriage returns -/

/-- A line ending is at the end of a text that is not empty. -/
theorem dropReturn_append (front : List Char) {back : List Char} (h : back ≠ []) :
    dropReturn (front ++ back) = front ++ dropReturn back := by
  have hlast : (front ++ back).getLast? = back.getLast? := List.getLast?_append_of_ne_nil _ h
  unfold dropReturn
  rw [hlast]
  split
  · exact List.dropLast_append_of_ne_nil h
  · rfl

/-- What a line loses is one carriage return. -/
theorem length_eq_length_dropReturn (text : List Char) :
    text.length = (dropReturn text).length + if text.getLast? = some '\r' then 1 else 0 := by
  unfold dropReturn
  split
  · next hlast =>
    have hpos : 0 < text.length := by
      apply List.length_pos_iff.2
      rintro rfl
      simp at hlast
    rw [List.length_dropLast]
    omega
  · rfl

/-- What stands at the start of a text stands at the start of its first line,
where it holds neither an end of a line nor a carriage return. -/
theorem prefix_dropReturn {mark text : List Char} (hmark : '\n' ∉ mark ∧ '\r' ∉ mark)
    (h : mark <+: text) : mark <+: dropReturn (text.takeWhile (· != '\n')) := by
  obtain ⟨rest, rfl⟩ := h
  rw [List.takeWhile_append_of_pos (forall_bne_iff.2 hmark.1)]
  rcases hrest : rest.takeWhile (· != '\n') with _ | ⟨c, back⟩
  · have hlast : mark.getLast? ≠ some '\r' := fun hlast =>
      hmark.2 (List.mem_of_getLast? hlast)
    rw [List.append_nil, dropReturn, if_neg hlast]
  · rw [dropReturn_append _ (by simp)]
    exact List.prefix_append _ _

/-! ## Lines -/

/-- There are as many lines as pieces. -/
theorem isSome_line?_iff {text : List Char} {number : Nat} :
    (line? text number).isSome = true ↔ 1 ≤ number ∧ number ≤ text.count '\n' + 1 := by
  have hlength := length_pieces text
  unfold line?
  split
  · next hzero =>
    subst hzero
    simp
  · next hne =>
    rw [Option.isSome_map, isSome_getElem?, hlength]
    omega

/-- A text of whole lines: nothing, or what a newline ends. -/
def IsWhole (text : List Char) : Prop := text = [] ∨ text.getLast? = some '\n'

/-- Behind some whole lines stands the next line. -/
theorem line?_of_isWhole {above : List Char} (h : IsWhole above) (text : List Char) :
    line? (above ++ text) (1 + above.count '\n') =
      some (dropReturn (text.takeWhile (· != '\n'))) := by
  have hfirst : (pieces text)[0]? = some (text.takeWhile (· != '\n')) := by
    rw [← List.head?_eq_getElem?, head?_pieces]
  rw [line?, if_neg (by omega), Nat.add_sub_cancel_left]
  rcases h with rfl | hlast
  · rw [List.nil_append, List.count_nil, hfirst]
    rfl
  · obtain ⟨front, rfl⟩ := List.getLast?_eq_some_iff.1 hlast
    have hcount : (front ++ ['\n']).count '\n' = (pieces front).length := by
      rw [length_pieces, List.count_append, List.count_singleton_self]
    have htext : front ++ ['\n'] ++ text = front ++ '\n' :: text := by simp
    rw [hcount, htext, pieces_append_newline, List.getElem?_append_right (Nat.le_refl _),
      Nat.sub_self, hfirst]
    rfl

end Text

namespace Position

theorem line_advance (p : Position) (text : List Char) :
    (p.advance text).line = p.line + text.count '\n' := by
  induction text generalizing p with
  | nil => rfl
  | cons c text ih =>
    rw [advance_cons, ih]
    by_cases hc : c = '\n'
    · subst hc
      rw [step_newline, List.count_cons_self]
      show p.line + 1 + _ = _
      omega
    · rw [step_of_ne hc, List.count_cons_of_ne hc]
      rfl

/-- Without a newline every character takes a column. -/
theorem advance_of_not_mem {text : List Char} (h : '\n' ∉ text) (p : Position) :
    p.advance text = ⟨p.line, p.column + text.length⟩ := by
  induction text generalizing p with
  | nil => rfl
  | cons c text ih =>
    obtain ⟨hc, htext⟩ := not_or.1 (mt List.mem_cons.2 h)
    rw [advance_cons, step_of_ne (Ne.symm hc), ih htext, right, List.length_cons]
    simp only [mk.injEq, true_and]
    omega

/-- A reader stands behind some whole lines and so many characters of the next
one as its column says. -/
theorem exists_line_start (front : List Char) :
    ∃ above before, front = above ++ before ∧ Text.IsWhole above ∧ '\n' ∉ before ∧
      start.advance front = ⟨1 + above.count '\n', before.length⟩ := by
  induction front using List.reverseRecOn with
  | nil => exact ⟨[], [], rfl, Or.inl rfl, by simp, rfl⟩
  | append_singleton front c ih =>
    obtain ⟨above, before, hfront, hwhole, hbefore, hplace⟩ := ih
    rw [advance_append, hplace, advance_cons, advance_nil]
    by_cases hc : c = '\n'
    · subst hc
      have hcount : before.count '\n' = 0 := List.count_eq_zero.2 hbefore
      refine ⟨front ++ ['\n'], [], by simp, Or.inr List.getLast?_concat, by simp, ?_⟩
      rw [step_newline, hfront, List.count_append, List.count_append, hcount,
        List.count_singleton_self]
      rfl
    · refine ⟨above, before ++ [c], by simp [hfront], hwhole, ?_, ?_⟩
      · simpa [hbefore] using Ne.symm hc
      · rw [step_of_ne hc, List.length_append]
        rfl

end Position

namespace Text

/-- The line of a place: as many characters as the column says, and then what
is ahead up to the next newline. -/
theorem exists_line_at (front ahead : List Char) :
    ∃ above before, front = above ++ before ∧ IsWhole above ∧
      before.length = (Position.start.advance front).column ∧
      line? (front ++ ahead) (Position.start.advance front).line =
        some (dropReturn (before ++ ahead.takeWhile (· != '\n'))) := by
  obtain ⟨above, before, rfl, hwhole, hbefore, hplace⟩ := Position.exists_line_start front
  refine ⟨above, before, rfl, hwhole, by rw [hplace], ?_⟩
  rw [hplace, List.append_assoc, line?_of_isWhole hwhole,
    List.takeWhile_append_of_pos (forall_bne_iff.2 hbefore)]

/-- Where a line goes on at a place, it shows what is ahead. -/
theorem exists_line_of_ahead (front : List Char) {ahead : List Char}
    (hne : ahead.takeWhile (· != '\n') ≠ []) :
    ∃ line, line? (front ++ ahead) (Position.start.advance front).line = some line ∧
      line.drop (Position.start.advance front).column =
        dropReturn (ahead.takeWhile (· != '\n')) := by
  obtain ⟨above, before, -, -, hcolumn, hline⟩ := exists_line_at front ahead
  refine ⟨_, hline, ?_⟩
  rw [dropReturn_append _ hne, ← hcolumn, List.drop_left]

end Text

end SharpLexer
