import Mathlib.Data.List.Infix
import Mathlib.Data.List.TakeWhile
import SharpLexer.Scan.Trivia

/-!
# The grammar of gaps

`Trivia.split` reads the gap in front of an item.  This module says which
texts a gap is made from, without reading anything, and that the reader
keeps to it.

There are three groups.

* Spans.  `takeWhile_span` and `dropWhile_span` say that a span is fixed by
  the class of its characters and by the character behind it.
* Pieces.  `Trivia.WellFormed` is the shape of one piece.
  `Trivia.wellFormed_of_head?` and `Trivia.head?_text_append` say that the
  reader finds such a piece, and just the one that the text starts with.
* Gaps.  `Trivia.ClosedGap` is a gap in front of an item and
  `Trivia.LastGap` one at the end of a text.  A line comment without a
  newline can only be the last piece of the last gap.
-/

namespace SharpLexer

/-! ## Spans -/

section Span

variable {α : Type} {p : α → Bool} {front back : List α}

theorem takeWhile_span (hfront : ∀ x ∈ front, p x = true)
    (hback : ∀ x ∈ back.head?, p x = false) : (front ++ back).takeWhile p = front := by
  rw [List.takeWhile_append_of_pos hfront]
  rcases back with _ | ⟨x, back⟩
  · simp
  · have hx : p x = false := hback x (by simp)
    simp [hx]

theorem dropWhile_span (hfront : ∀ x ∈ front, p x = true)
    (hback : ∀ x ∈ back.head?, p x = false) : (front ++ back).dropWhile p = back := by
  rw [List.dropWhile_append_of_pos hfront]
  rcases back with _ | ⟨x, back⟩
  · simp
  · have hx : p x = false := hback x (by simp)
    simp [hx]

/-- So a text is cut behind a span in one way only. -/
theorem span_inj {front' back' : List α} (hfront : ∀ x ∈ front, p x = true)
    (hback : ∀ x ∈ back.head?, p x = false) (hfront' : ∀ x ∈ front', p x = true)
    (hback' : ∀ x ∈ back'.head?, p x = false) (h : front ++ back = front' ++ back') :
    front = front' ∧ back = back' := by
  constructor
  · rw [← takeWhile_span hfront hback, h, takeWhile_span hfront' hback']
  · rw [← dropWhile_span hfront hback, h, dropWhile_span hfront' hback']

/-- The character behind a span is outside its class. -/
theorem head?_dropWhile_span (p : α → Bool) (list : List α) :
    ∀ x ∈ (list.dropWhile p).head?, p x = false := by
  intro x hx
  have h := List.head?_dropWhile_not p list
  rw [Option.mem_def.1 hx] at h
  exact h

end Span

theorem forall_bne_iff {c : Char} {text : List Char} :
    (∀ d ∈ text, (d != c) = true) ↔ c ∉ text := by
  constructor
  · intro h hmem
    have hne := h c hmem
    simp at hne
  · intro h d hd
    have hne : d ≠ c := by
      intro heq
      rw [heq] at hd
      exact h hd
    simpa using hne

/-- What is taken up to a character does not hold it. -/
theorem not_mem_takeWhile_bne (c : Char) (text : List Char) : c ∉ text.takeWhile (· != c) :=
  forall_bne_iff.1 fun _ => List.mem_takeWhile_imp

namespace Trivia

/-! ## Pieces -/

/-- The shape of a piece.  A line comment has no third slash and no newline
inside, and a block comment does not hold its own end. -/
def WellFormed : Trivia → Prop
  | blank c => Text.isBlank c = true
  | line body _ => '\n' ∉ body ∧ body.head? ≠ some '/'
  | block body => ¬ ['*', '/'] <:+: body

/-- A piece that has its end.  Only a line comment can lack it. -/
def isClosed : Trivia → Bool
  | blank _ => true
  | line _ newline => newline
  | block _ => true

/-- The end of a block comment is the first `*/` behind its start. -/
theorem closeAfter_eq_some_of {body : List Char} (hbody : ¬ ['*', '/'] <:+: body)
    (passed after : List Char) :
    closeAfter passed (body ++ '*' :: '/' :: after) = some (passed.reverse ++ body, after) := by
  induction body generalizing passed with
  | nil => simp [closeAfter]
  | cons c body ih =>
    have hrest : ¬ ['*', '/'] <:+: body := fun h => hbody (List.infix_cons h)
    -- the first two characters are not `*/`, also where the body ends
    have hfirst : ∀ rest, c = '*' → body ++ '*' :: '/' :: after = '/' :: rest → False := by
      intro rest hc heq
      rcases body with _ | ⟨d, body⟩
      · simp at heq
      · obtain rfl : d = '/' := by simpa using congrArg List.head? heq
        exact hbody ⟨[], body, by simp [hc]⟩
    rw [List.cons_append, closeAfter.eq_2 _ _ _ hfirst, ih hrest]
    simp

theorem closeAfter_eq_none_iff {passed text : List Char} :
    closeAfter passed text = none ↔ ¬ ['*', '/'] <:+: text := by
  fun_induction closeAfter passed text with
  | case1 passed rest =>
    have : ['*', '/'] <:+: '*' :: '/' :: rest := ⟨[], rest, rfl⟩
    simp [this]
  | case2 passed c rest hfirst ih =>
    rw [ih, List.infix_cons_iff]
    have hnot : ¬ ['*', '/'] <+: c :: rest := by
      intro hfits
      obtain ⟨after, hafter⟩ := hfits
      obtain ⟨rfl, rfl⟩ : '*' = c ∧ '/' :: after = rest := by simpa using hafter
      exact hfirst after rfl rfl
    simp [hnot]
  | case3 => simp

theorem closeAfter_body {passed text before after : List Char}
    (h : closeAfter passed text = some (before, after)) :
    ∃ body, before = passed.reverse ++ body ∧ text = body ++ '*' :: '/' :: after ∧
      ¬ ['*', '/'] <:+: body := by
  fun_induction closeAfter passed text with
  | case1 passed rest =>
    obtain ⟨rfl, rfl⟩ : passed.reverse = before ∧ rest = after := by simpa using h
    exact ⟨[], by simp⟩
  | case2 passed c rest hfirst ih =>
    obtain ⟨body, rfl, rfl, hbody⟩ := ih h
    refine ⟨c :: body, by simp, by simp, ?_⟩
    rw [List.infix_cons_iff]
    intro hend
    rcases hend with ⟨back, hback⟩ | hin
    · obtain ⟨rfl, rfl⟩ : '*' = c ∧ '/' :: back = body := by simpa using hback
      exact hfirst _ rfl (List.cons_append ..)
    · exact hbody hin
  | case3 => simp at h

theorem close?_eq_some_iff {text body after : List Char} :
    close? text = some (body, after) ↔
      text = body ++ '*' :: '/' :: after ∧ ¬ ['*', '/'] <:+: body := by
  constructor
  · intro h
    obtain ⟨inner, hinner, htext, hbody⟩ := closeAfter_body h
    obtain rfl : body = inner := by simpa using hinner
    exact ⟨htext, hbody⟩
  · intro h
    obtain ⟨rfl, hbody⟩ := h
    exact closeAfter_eq_some_of hbody [] after

theorem close?_eq_none_iff {text : List Char} :
    close? text = none ↔ ¬ ['*', '/'] <:+: text :=
  closeAfter_eq_none_iff

/-- What the reader takes for a piece has the shape of one, and only the end
of the text can leave it without an end. -/
theorem wellFormed_of_head? {text rest : List Char} {piece : Trivia}
    (h : head? text = some (piece, rest)) :
    piece.WellFormed ∧ (piece.isClosed = false → rest = []) := by
  unfold head? at h
  split at h
  · next body =>
    split at h
    · simp at h
    · next hthird =>
      have hline : '\n' ∉ body.takeWhile inLine := not_mem_takeWhile_bne '\n' body
      have hhead : (body.takeWhile inLine).head? ≠ some '/' := by
        rcases body with _ | ⟨c, body⟩
        · simp
        · simp only [List.head?_cons, Option.some.injEq] at hthird
          by_cases hc : inLine c <;> simp [hc, hthird]
      split at h
      · obtain ⟨rfl, rfl⟩ := by simpa using h
        exact ⟨⟨hline, hhead⟩, fun _ => rfl⟩
      · obtain ⟨rfl, rfl⟩ := by simpa using h
        exact ⟨⟨hline, hhead⟩, by simp [isClosed]⟩
  · simp only [Option.map_eq_some_iff, Prod.exists] at h
    obtain ⟨body, after, hclose, hpair⟩ := h
    obtain ⟨rfl, rfl⟩ := by simpa using hpair
    exact ⟨(close?_eq_some_iff.1 hclose).2, by simp [isClosed]⟩
  · split at h
    · next hblank =>
      obtain ⟨rfl, rfl⟩ := by simpa using h
      exact ⟨hblank, by simp [isClosed]⟩
    · simp at h
  · simp at h

/-- A piece is read as itself, whatever stands behind it. -/
theorem head?_text_append {piece : Trivia} (hpiece : piece.WellFormed) {rest : List Char}
    (hrest : piece.isClosed = false → rest = []) :
    head? (piece.text ++ rest) = some (piece, rest) := by
  cases piece with
  | blank c =>
    have hc : Text.isBlank c = true := hpiece
    have hslash : c ≠ '/' := by
      intro heq
      rw [heq] at hc
      exact absurd hc (by decide)
    simp [Trivia.text, head?, hslash, hc]
  | line body newline =>
    obtain ⟨hline, hthird⟩ := hpiece
    have hbody : ∀ c ∈ body, inLine c = true := forall_bne_iff.2 hline
    cases newline with
    | true =>
      have hback : ∀ c ∈ ('\n' :: rest).head?, inLine c = false := by simp [inLine]
      have hhead : (body ++ '\n' :: rest).head? ≠ some '/' := by
        rcases body with _ | ⟨c, body⟩
        · simp
        · simpa using hthird
      simp only [Trivia.text, if_true, List.cons_append, List.append_assoc, List.nil_append,
        head?, if_neg hhead]
      rw [takeWhile_span hbody hback, dropWhile_span hbody hback]
    | false =>
      obtain rfl : rest = [] := hrest rfl
      have htake : body.takeWhile inLine = body := List.takeWhile_eq_self_iff.2 hbody
      have hdrop : body.dropWhile inLine = [] := List.dropWhile_eq_nil_iff.2 hbody
      simp [Trivia.text, head?, hthird, htake, hdrop]
  | block body =>
    have hclose : close? (body ++ '*' :: '/' :: rest) = some (body, rest) :=
      close?_eq_some_iff.2 ⟨rfl, hpiece⟩
    simp [Trivia.text, head?, hclose]

/-- No piece stands where a character that separates nothing stands, and a
slash that opens neither a line comment nor a closed block comment. -/
theorem head?_eq_none_iff {c : Char} {rest : List Char} :
    head? (c :: rest) = none ↔
      Text.isBlank c = false ∧
        (['/', '/'] <+: c :: rest → ['/', '/', '/'] <+: c :: rest) ∧
        ∀ body, c :: rest = '/' :: '*' :: body → ¬ ['*', '/'] <:+: body := by
  have hslash : Text.isBlank '/' = false := by decide
  unfold head?
  split
  · next body heq =>
    obtain ⟨rfl, rfl⟩ : c = '/' ∧ rest = '/' :: body := by simpa using heq
    split
    · next hthird =>
      obtain ⟨back, rfl⟩ : ∃ back, body = '/' :: back := by
        rcases body with _ | ⟨d, back⟩
        · simp at hthird
        · exact ⟨back, by simpa using hthird⟩
      simp [hslash]
    · next hthird =>
      have hnot : ¬ ['/'] <+: body := by
        intro hfits
        obtain ⟨back, rfl⟩ := hfits
        exact hthird rfl
      split <;> simp [hnot]
  · next body heq =>
    obtain ⟨rfl, rfl⟩ : c = '/' ∧ rest = '*' :: body := by simpa using heq
    simp [close?_eq_none_iff, hslash]
  · next d back hline hblock heq =>
    obtain ⟨rfl, rfl⟩ : c = d ∧ rest = back := by simpa using heq
    have hnot : ¬ ['/', '/'] <+: c :: rest := by
      intro hfits
      obtain ⟨body, hbody⟩ := hfits
      obtain ⟨rfl, rfl⟩ : '/' = c ∧ '/' :: body = rest := by simpa using hbody
      exact hline body rfl rfl
    have hopen : ∀ body, c :: rest = '/' :: '*' :: body → ¬ ['*', '/'] <:+: body := by
      intro body hbody
      obtain ⟨rfl, rfl⟩ : c = '/' ∧ rest = '*' :: body := by simpa using hbody
      exact absurd rfl (hblock body rfl)
    simp only [ite_eq_right_iff, reduceCtorEq, imp_false, Bool.not_eq_true]
    exact ⟨fun h => ⟨h, fun h => absurd h hnot, hopen⟩, fun h => h.1⟩
  · next heq => simp at heq

/-! ## Gaps -/

/-- A gap in front of an item: every piece has its end. -/
def ClosedGap (gap : List Trivia) : Prop :=
  ∀ piece ∈ gap, piece.WellFormed ∧ piece.isClosed = true

/-- A gap at the end of a text: its last piece may be a line comment that
the text ends. -/
def LastGap (gap : List Trivia) : Prop :=
  ClosedGap gap ∨
    ∃ front body, gap = front ++ [line body false] ∧ ClosedGap front ∧
      (line body false).WellFormed

@[simp] theorem closedGap_nil : ClosedGap [] := by
  simp [ClosedGap]

theorem closedGap_cons {piece : Trivia} {gap : List Trivia} :
    ClosedGap (piece :: gap) ↔ piece.WellFormed ∧ piece.isClosed = true ∧ ClosedGap gap := by
  simp [ClosedGap, and_assoc]

theorem LastGap.cons {piece : Trivia} {gap : List Trivia} (hpiece : piece.WellFormed)
    (hclosed : piece.isClosed = true) (hgap : LastGap gap) : LastGap (piece :: gap) := by
  rcases hgap with hgap | ⟨front, body, rfl, hfront, hbody⟩
  · exact Or.inl (closedGap_cons.2 ⟨hpiece, hclosed, hgap⟩)
  · exact Or.inr ⟨piece :: front, body, rfl, closedGap_cons.2 ⟨hpiece, hclosed, hfront⟩, hbody⟩

@[simp] theorem gapText_nil : gapText [] = [] := rfl

@[simp] theorem gapText_cons (piece : Trivia) (gap : List Trivia) :
    gapText (piece :: gap) = piece.text ++ gapText gap := rfl

@[simp] theorem gapText_append (front back : List Trivia) :
    gapText (front ++ back) = gapText front ++ gapText back :=
  List.flatMap_append

/-- A row of blanks is a gap. -/
theorem gapText_blanks (text : List Char) : gapText (text.map blank) = text := by
  induction text with
  | nil => rfl
  | cons c text ih =>
    rw [List.map_cons, gapText_cons, ih]
    rfl

theorem closedGap_blanks {text : List Char} (h : text.all Text.isBlank = true) :
    ClosedGap (text.map blank) := by
  intro piece hpiece
  obtain ⟨c, hc, rfl⟩ := List.mem_map.1 hpiece
  exact ⟨List.all_eq_true.1 h c hc, rfl⟩

/-- The only piece that can lack its end is a line comment. -/
theorem exists_line_of_not_isClosed {piece : Trivia} (h : piece.isClosed = false) :
    ∃ body, piece = line body false := by
  cases piece with
  | blank c => simp [isClosed] at h
  | line body newline =>
    obtain rfl : newline = false := h
    exact ⟨body, rfl⟩
  | block body => simp [isClosed] at h

@[simp] theorem split_nil : split [] = ([], []) := split_of_head?_eq_none rfl

/-- The gap that is read: closed where an item follows, and a last gap at
the end of the text.  It takes in every piece there is. -/
theorem split_spec (text : List Char) :
    head? (split text).2 = none ∧ LastGap (split text).1 ∧
      ((split text).2 ≠ [] → ClosedGap (split text).1) := by
  induction hn : text.length using Nat.strongRecOn generalizing text with
  | ind n ih =>
    subst hn
    cases h : head? text with
    | none =>
      rw [split_of_head?_eq_none h]
      exact ⟨h, Or.inl closedGap_nil, fun _ => closedGap_nil⟩
    | some found =>
      obtain ⟨piece, rest⟩ := found
      obtain ⟨hpiece, hopen⟩ := wellFormed_of_head? h
      obtain ⟨hstop, hlast, hclosed⟩ := ih rest.length (head?_length h) rest rfl
      rw [split_of_head? h]
      refine ⟨hstop, ?_⟩
      cases hend : piece.isClosed with
      | true =>
        exact ⟨hlast.cons hpiece hend, fun hne => closedGap_cons.2 ⟨hpiece, hend, hclosed hne⟩⟩
      | false =>
        obtain rfl : rest = [] := hopen hend
        obtain ⟨body, rfl⟩ := exists_line_of_not_isClosed hend
        rw [split_nil]
        exact ⟨Or.inr ⟨[], body, rfl, closedGap_nil, hpiece⟩, fun hne => absurd rfl hne⟩

/-- A closed gap is read as itself, together with the gap behind it. -/
theorem split_gapText_append {gap : List Trivia} (hgap : ClosedGap gap) (rest : List Char) :
    split (gapText gap ++ rest) = (gap ++ (split rest).1, (split rest).2) := by
  induction gap with
  | nil => simp
  | cons piece gap ih =>
    obtain ⟨hpiece, hclosed, hgap⟩ := closedGap_cons.1 hgap
    have hhead : head? (gapText (piece :: gap) ++ rest) = some (piece, gapText gap ++ rest) := by
      rw [gapText_cons, List.append_assoc]
      exact head?_text_append hpiece (by simp [hclosed])
    rw [split_of_head? hhead, ih hgap]
    simp

/-- A last gap is read as itself. -/
theorem split_gapText_of_lastGap {gap : List Trivia} (hgap : LastGap gap) :
    split (gapText gap) = (gap, []) := by
  rcases hgap with hgap | ⟨front, body, rfl, hfront, hbody⟩
  · have hsplit := split_gapText_append hgap []
    rw [split_nil] at hsplit
    simpa using hsplit
  · have hhead : head? (gapText [line body false]) = some (line body false, []) := by
      rw [gapText_cons]
      exact head?_text_append hbody fun _ => rfl
    rw [gapText_append, split_gapText_append hfront, split_of_head? hhead, split_nil]

end Trivia

end SharpLexer
