import SharpLexer.Proofs.Lines
import SharpLexer.Proofs.Outcome

/-!
# The lines of a text, put together

A text is cut into lines at its newlines, and a line loses one carriage return at its end.
So the lines with newlines between them are the text again, but for the carriage returns
of its line endings.

* `Text.withoutReturns` says which carriage returns these are, character by character and
  without cutting anything.
* `Text.intercalate_lines` puts the pieces of a text together again, each without its
  carriage return.
* `Text.filterMap_line?` counts the lines through, from the first to the last.
* `line_partition` is about the lines by number.
-/

namespace SharpLexer

namespace Text

/-! ## Line endings -/

/-- A carriage return in front of a newline or of the end of the text. -/
def endsLine (c : Char) (rest : List Char) : Bool :=
  c = '\r' && (rest.head? = none || rest.head? = some '\n')

/-- The text without the carriage returns of its line endings.  Of several in a row only
the last one is such. -/
def withoutReturns : List Char → List Char
  | [] => []
  | c :: rest => if endsLine c rest then withoutReturns rest else c :: withoutReturns rest

/-! ## Pieces -/

theorem newline_not_mem_of_mem_pieces {text line : List Char} (h : line ∈ pieces text) :
    '\n' ∉ line := by
  induction text generalizing line with
  | nil =>
    obtain rfl : line = [] := List.mem_singleton.1 h
    exact List.not_mem_nil
  | cons c text ih =>
    by_cases hc : c = '\n'
    · subst hc
      rcases List.mem_cons.1 h with rfl | hline
      · exact List.not_mem_nil
      · exact ih hline
    · obtain ⟨first, others, hpieces⟩ := List.exists_cons_of_ne_nil (pieces_ne_nil text)
      rw [pieces_cons hc, hpieces, pushFirst] at h
      rw [hpieces] at ih
      rcases List.mem_cons.1 h with rfl | hline
      · intro hmem
        rcases List.mem_cons.1 hmem with heq | hfirst
        · exact hc heq.symm
        · exact ih List.mem_cons_self hfirst
      · exact ih (List.mem_cons_of_mem first hline)

/-- What is put in front of the first line stands in front of the joined lines. -/
theorem intercalate_append_cons (front line : List Char) (lines : List (List Char)) :
    List.intercalate ['\n'] ((front ++ line) :: lines) =
      front ++ List.intercalate ['\n'] (line :: lines) := by
  cases lines with
  | nil => simp only [List.intercalate_singleton]
  | cons other lines => simp only [List.intercalate_cons_cons, List.append_assoc]

/-- A line keeps its first character, unless that is a carriage return at its end. -/
theorem dropReturn_cons_takeWhile (c : Char) (text : List Char) :
    dropReturn (c :: text.takeWhile (· != '\n')) =
      (if endsLine c text then [] else [c]) ++ dropReturn (text.takeWhile (· != '\n')) := by
  have hempty : dropReturn [c] = (if c = '\r' then [] else [c]) ++ dropReturn [] := by
    simp [dropReturn]
  rcases text with _ | ⟨d, text⟩
  · simpa [endsLine] using hempty
  · by_cases hd : d = '\n'
    · simpa [endsLine, hd] using hempty
    · have hline : (d :: text).takeWhile (· != '\n') ≠ [] := by simp [hd]
      have hkeep := dropReturn_append [c] hline
      simpa [endsLine, hd] using hkeep

/-- The lines of a text, with newlines between them, are the text without the carriage
returns of its line endings. -/
theorem intercalate_lines (text : List Char) :
    List.intercalate ['\n'] ((pieces text).map dropReturn) = withoutReturns text := by
  -- a newline opens a line in front of the others, any other character joins the first line
  induction text with
  | nil => rfl
  | cons c text ih =>
    obtain ⟨line, others, hpieces⟩ := List.exists_cons_of_ne_nil (pieces_ne_nil text)
    rw [hpieces, List.map_cons] at ih
    by_cases hc : c = '\n'
    · subst hc
      have hkeep : withoutReturns ('\n' :: text) = '\n' :: withoutReturns text := rfl
      rw [hkeep, ← ih, pieces_newline, hpieces, List.map_cons, List.map_cons]
      exact List.intercalate_cons_cons
    · have hline : line = text.takeWhile (· != '\n') := by
        have hhead := head?_pieces text
        rwa [hpieces, List.head?_cons, Option.some.injEq] at hhead
      rw [pieces_cons hc, hpieces, pushFirst, List.map_cons, hline, dropReturn_cons_takeWhile,
        ← hline, intercalate_append_cons, ih, withoutReturns]
      split <;> rfl

/-! ## Lines by number -/

/-- The elements at all indices of a list are the list. -/
theorem filterMap_range_getElem? {α : Type} (list : List α) :
    (List.range list.length).filterMap (list[·]?) = list := by
  induction list with
  | nil => rfl
  | cons x list ih =>
    rw [List.length_cons, List.range_succ_eq_map, List.filterMap_cons, List.filterMap_map]
    exact congrArg (x :: ·) ih

/-- Counted through from the first to the last, the lines are the pieces, each without its
carriage return. -/
theorem filterMap_line? (text : List Char) :
    (List.range' 1 (1 + text.count '\n')).filterMap (line? text) =
      (pieces text).map dropReturn := by
  have hlength : 1 + text.count '\n' = ((pieces text).map dropReturn).length := by
    rw [List.length_map, length_pieces, Nat.add_comm]
  have hline : line? text ∘ (1 + ·) = fun i => ((pieces text).map dropReturn)[i]? := by
    funext i
    rw [Function.comp_apply, line?, if_neg (by omega), Nat.add_sub_cancel_left,
      List.getElem?_map]
  rw [hlength, List.range'_eq_map_range, List.filterMap_map, hline, filterMap_range_getElem?]

theorem newline_not_mem_of_line? {text line : List Char} {number : Nat}
    (h : line? text number = some line) : '\n' ∉ line := by
  rw [line?] at h
  split at h
  · exact absurd h (by simp)
  · obtain ⟨piece, hpiece, rfl⟩ := Option.map_eq_some_iff.1 h
    intro hmem
    exact newline_not_mem_of_mem_pieces (List.mem_of_getElem? hpiece) (mem_of_mem_dropReturn hmem)

end Text

/-- A text has one line more than it has newlines, and they are numbered from one on.  No
line holds a newline, and with newlines between them the lines are the text without the
carriage returns of its line endings. -/
theorem line_partition (source : String) :
    (∀ number, (Text.line? source.toList number).isSome = true ↔
        1 ≤ number ∧ number ≤ 1 + source.toList.count '\n') ∧
      (∀ number, ∀ line ∈ Text.line? source.toList number, '\n' ∉ line) ∧
      List.intercalate ['\n']
          ((List.range' 1 (1 + source.toList.count '\n')).filterMap
            (Text.line? source.toList)) =
        Text.withoutReturns source.toList := by
  refine ⟨?_, ?_, ?_⟩
  · intro number
    rw [Text.isSome_line?_iff, Nat.add_comm 1]
  · intro number line hline
    exact Text.newline_not_mem_of_line? hline
  · rw [Text.filterMap_line?, Text.intercalate_lines]

/-- Two carriage returns in front of a newline, one inside a line, and one at the end. -/
def mixedEndingsSource : String := "a\r\r\n\rb\n\r"

/-- The three lines of `mixedEndingsSource` keep the first carriage return of two and the
one that ends nothing. -/
theorem line_partition_mixedEndingsSource :
    (Text.line? mixedEndingsSource.toList 3).isSome = true ∧
      (Text.line? mixedEndingsSource.toList 4).isSome = false ∧
      Text.line? mixedEndingsSource.toList 2 = some ['\r', 'b'] ∧ '\n' ∉ ['\r', 'b'] ∧
      List.intercalate ['\n']
          ((List.range' 1 3).filterMap (Text.line? mixedEndingsSource.toList)) =
        ['a', '\r', '\n', '\r', 'b', '\n'] := by
  obtain ⟨hsome, hnewline, hjoin⟩ := line_partition mixedEndingsSource
  have hsecond : Text.line? mixedEndingsSource.toList 2 = some ['\r', 'b'] := by decide
  refine ⟨(hsome 3).2 (by decide), ?_, hsecond, hnewline 2 _ hsecond, hjoin⟩
  rw [← Bool.not_eq_true, hsome 4]
  decide

end SharpLexer
