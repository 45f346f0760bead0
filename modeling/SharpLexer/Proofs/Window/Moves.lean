import Mathlib.Data.List.Chain
import SharpLexer.Proofs.Gap
import SharpLexer.Proofs.Window.Basic

/-!
# How a window moves

`Window.showing` is the window that shows what a cursor does: its index is the
number of characters that the cursor has passed over, and the two characters that
it keeps are those of the cursor.

* `Window.advance_within` and the three lemmas behind it are the only facts about
  a single move.
* `Window.advanceWhile_of_isChain` runs a loop along a part of a text.  Its
  condition looks at a character and the one behind it, so it holds all along the
  part where these two are related all along it.
* `Window.slice_showing` and `Window.inside_offset` say what a slice holds, and
  that its bounds lie inside of the framed text.
-/

namespace SharpLexer

/-- The index of the character that a cursor stands on, in the framed text. -/
def Cursor.index (text : List Char) : Cursor → Nat
  | within _ rest _ => text.length - rest.length
  | closing _ => text.length + 1
  | ended _ => text.length + 2

namespace Cursor

variable (d : Char) (rest : List Char) (p : Position)

@[simp] theorem current_within : (within d rest p).current = d := rfl

@[simp] theorem peek_within : (within d rest p).peek = rest.head?.getD frame := rfl

@[simp] theorem position_within : (within d rest p).position = p := rfl

@[simp] theorem current_closing : (closing p).current = frame := rfl

end Cursor

namespace Window

open Cursor (within closing ended frame nothing)

/-- The window that shows what a cursor does. -/
def showing (text : List Char) (c : Cursor) : Window :=
  ⟨frame :: (text ++ [frame]), c.index text, c.current, c.peek, c.position.line,
    c.position.column⟩

section Showing

variable (text : List Char) (c : Cursor)

@[simp] theorem buffer_showing : (showing text c).buffer = frame :: (text ++ [frame]) := rfl

theorem index_showing : (showing text c).index = c.index text := rfl

@[simp] theorem current_showing : (showing text c).current = c.current := rfl

@[simp] theorem lookahead_showing : (showing text c).lookahead = c.peek := rfl

@[simp] theorem position_showing : (showing text c).position = c.position := rfl

end Showing

@[simp] theorem unsigned_natCast (n : Nat) : unsigned n = n := by
  simp [unsigned]

variable {text rest : List Char} {d : Char} {q : Position}

/-- The characters of the framed text behind a place. -/
theorem getElem?_framed (front back : List Char) (k : Nat) :
    (frame :: (front ++ back ++ [frame]))[front.length + 1 + k]? = (back ++ [frame])[k]? := by
  rw [Nat.add_right_comm, List.getElem?_cons_succ, List.append_assoc,
    List.getElem?_append_right (Nat.le_add_right _ _), Nat.add_sub_cancel_left]

/-- What stands behind the next character is in view as well. -/
theorem charAt_showing (h : rest <:+ text) :
    (showing text (within d rest q)).charAt ((showing text (within d rest q)).index + 2) =
      ((rest ++ [frame])[1]?).getD nothing := by
  obtain ⟨front, rfl⟩ := h
  have hget := getElem?_framed front rest 1
  have hnat : (showing (front ++ rest) (within d rest q)).index + 2 =
      ((front.length + 1 + 1 : Nat) : Int) := by
    simp [index_showing, Cursor.index]
    omega
  rw [hnat, charAt, if_neg (by omega), unsigned_natCast, buffer_showing, hget]

theorem charAt_showing_cons {x : Char} (h : x :: rest <:+ text) :
    (showing text (within d (x :: rest) q)).charAt
      ((showing text (within d (x :: rest) q)).index + 2) = rest.head?.getD frame := by
  rw [charAt_showing h]
  cases rest <;> rfl

/-! ## Single moves -/

/-- A move within the buffer. -/
theorem advance_eq {w : Window} {i : Nat} {x : Char} (hindex : w.index + 1 = i)
    (hget : w.buffer[i]? = some x) :
    w.advance =
      ⟨w.buffer, i, x, (w.buffer[i + 1]?).getD nothing, if x = '\n' then w.line + 1 else w.line,
        if x = '\n' then 0 else w.column + 1⟩ := by
  obtain ⟨hlt, hx⟩ := List.getElem?_eq_some_iff.1 hget
  have hahead : w.charAt (i + 1) = (w.buffer[i + 1]?).getD nothing := by
    have hnat : (i : Int) + 1 = ((i + 1 : Nat) : Int) := rfl
    rw [hnat, charAt, if_neg (by omega), unsigned_natCast]
  have hnot : ¬ w.buffer.length ≤ i := by omega
  unfold advance
  simp only [hindex, unsigned_natCast, hnot, dif_neg, not_false_eq_true, hx, hahead]
  split <;> rfl

theorem advance_within {x : Char} (h : x :: rest <:+ text) :
    (showing text (within d (x :: rest) q)).advance = showing text (within x rest (q.step x)) := by
  obtain ⟨front, rfl⟩ := h
  have hget := getElem?_framed front (x :: rest) 0
  have hahead : (frame :: (front ++ x :: rest ++ [frame]))[front.length + 1 + 1]? =
      some (rest.head?.getD frame) := by
    rw [getElem?_framed front (x :: rest) 1]
    cases rest <;> rfl
  have hindex : (showing (front ++ x :: rest) (within d (x :: rest) q)).index + 1 =
      (front.length + 1 : Nat) := by
    simp [index_showing, Cursor.index]
  rw [advance_eq hindex hget, buffer_showing, hahead]
  by_cases hx : x = '\n'
  · subst hx
    simp [showing, Cursor.index, Cursor.current, Cursor.peek, Cursor.position]
    omega
  · simp [showing, Cursor.index, Cursor.current, Cursor.peek, Cursor.position, hx,
      Position.step_of_ne hx, Position.right]
    omega

/-- Behind the last character comes the closing blank. -/
theorem advance_last : (showing text (within d [] q)).advance = showing text (closing q.right) := by
  have hget := getElem?_framed text [] 0
  have hahead := getElem?_framed text [] 1
  rw [List.append_nil] at hget hahead
  have hindex : (showing text (within d [] q)).index + 1 = (text.length + 1 : Nat) := by
    simp [index_showing, Cursor.index]
  have hframe : frame ≠ '\n' := by decide
  rw [advance_eq hindex hget, buffer_showing, hahead]
  simp [showing, Cursor.index, Cursor.current, Cursor.peek, Cursor.position, hframe,
    Position.right]

/-- Behind the closing blank there is nothing. -/
theorem advance_closing :
    (showing text (closing q)).advance = showing text (ended q) := by
  have hindex : (showing text (closing q)).index + 1 = (text.length + 2 : Nat) := rfl
  have hend : (showing text (closing q)).buffer.length ≤ text.length + 2 := by simp
  unfold advance
  simp only [hindex, unsigned_natCast]
  rw [dif_pos hend]
  simp [showing, Cursor.index, Cursor.current, Cursor.peek, Cursor.position]
  omega

theorem advance_ended : (showing text (ended q)).advance = showing text (ended q) := by
  have hindex : (showing text (ended q)).index + 1 = (text.length + 3 : Nat) := rfl
  have hend : (showing text (ended q)).buffer.length ≤ text.length + 3 := by simp
  unfold advance
  simp only [hindex, unsigned_natCast]
  rw [dif_pos hend]
  simp [showing, Cursor.index, Cursor.current, Cursor.peek, Cursor.position]
  omega

theorem ofText_eq (text : List Char) : ofText text = showing text (Cursor.start text) := by
  have hahead : (frame :: (text ++ [frame]))[0 + 1]? = some (text.head?.getD frame) := by
    cases text <;> rfl
  have hframe : frame ≠ '\n' := by decide
  rw [ofText, advance_eq (i := 0) (x := frame) rfl rfl, hahead]
  simp [showing, Cursor.start, Cursor.index, Cursor.current, Cursor.peek, Cursor.position,
    Position.start, hframe]

/-! ## The end of the buffer -/

theorem atEnd_within (h : rest <:+ text) : (showing text (within d rest q)).atEnd = false := by
  have hlength := h.length_le
  simp only [atEnd, index_showing, Cursor.index, unsigned_natCast, buffer_showing,
    decide_eq_false_iff_not, List.length_cons, List.length_append, List.length_nil]
  omega

theorem atEnd_closing : (showing text (closing q)).atEnd = true := by
  simp only [atEnd, index_showing, Cursor.index, unsigned_natCast, buffer_showing,
    decide_eq_true_eq, List.length_cons, List.length_append, List.length_nil]
  omega

theorem nextIsEnd_within (h : rest <:+ text) :
    (showing text (within d rest q)).nextIsEnd = rest.isEmpty := by
  have hlength := h.length_le
  have hempty : rest.isEmpty = decide (rest.length = 0) := by cases rest <;> simp
  rw [hempty, nextIsEnd]
  simp only [index_showing, Cursor.index, buffer_showing, List.length_cons, List.length_append,
    List.length_nil, decide_eq_decide]
  omega

/-! ## Loops -/

/-- How many moves are left, told from the cursor. -/
theorem left_showing (c : Cursor) : (showing text c).left = text.length + 2 - c.index text := by
  simp only [left, buffer_showing, index_showing, List.length_cons, List.length_append,
    List.length_nil]
  omega

theorem left_advance_lt (h : rest <:+ text) :
    (showing text (within d rest q)).advance.left < (showing text (within d rest q)).left := by
  have hlength := h.length_le
  cases rest with
  | nil =>
    rw [advance_last, left_showing, left_showing]
    simp only [Cursor.index, List.length_nil]
    omega
  | cons x rest =>
    rw [advance_within h, left_showing, left_showing]
    simp only [Cursor.index, List.length_cons] at hlength ⊢
    omega

theorem advanceWhile_of_go {p : Window → Bool} (h : rest <:+ text)
    (hp : p (showing text (within d rest q)) = true) :
    (showing text (within d rest q)).advanceWhile p =
      (showing text (within d rest q)).advance.advanceWhile p := by
  rw [advanceWhile, if_pos ⟨hp, left_advance_lt h⟩]

/-- The condition `p` of a loop holds of a window on `a` with `b` behind it, where
`R` relates the two. -/
def RunsOn (text : List Char) (p : Window → Bool) (R : Char → Char → Prop) : Prop :=
  ∀ (a b : Char) (rest : List Char) (q : Position), b :: rest <:+ text → R a b →
    p (showing text (within a (b :: rest) q)) = true

/-- The condition also holds of a window on the last character of the text, where
`R` relates that to the closing blank.  There the loop stops. -/
def RunsOut (text : List Char) (p : Window → Bool) (R : Char → Char → Prop) : Prop :=
  (∀ (a : Char) (q : Position), R a frame → p (showing text (within a [] q)) = true) ∧
    ∀ q : Position, p (showing text (closing q)) = false

/-- A loop runs along a text as long as its condition holds of every character and
the one behind it. -/
theorem advanceWhile_of_isChain {p : Window → Bool} {R : Char → Char → Prop}
    (hgo : RunsOn text p R)
    {span back : List Char} (htext : span ++ back <:+ text) (hchain : (d :: span).IsChain R) :
    (showing text (within d (span ++ back) q)).advanceWhile p =
      (showing text (within (span.getLast?.getD d) back (q.advance span))).advanceWhile p := by
  induction span generalizing d q with
  | nil => rfl
  | cons x span ih =>
    obtain ⟨hfirst, hrest⟩ := List.isChain_cons_cons.1 hchain
    have htail : span ++ back <:+ text := (List.suffix_cons x _).trans htext
    rw [List.cons_append] at htext ⊢
    rw [advanceWhile_of_go htext (hgo d x _ q htext hfirst), advance_within htext, ih htail hrest,
      List.getLast?_cons]
    rfl

/-- A loop that nothing stops in front of the end runs up to the closing blank. -/
theorem advanceWhile_to_closing {p : Window → Bool} {R : Char → Char → Prop}
    (hgo : RunsOn text p R) (hout : RunsOut text p R)
    {span : List Char} (htext : span <:+ text) (hchain : (d :: (span ++ [frame])).IsChain R) :
    (showing text (within d span q)).advanceWhile p =
      showing text (closing (q.advance span).right) := by
  induction span generalizing d q with
  | nil =>
    have hframe : R d frame := List.isChain_pair.1 hchain
    rw [advanceWhile_of_go htext (hout.1 d q hframe), advance_last,
      advanceWhile_of_not (hout.2 _)]
    rfl
  | cons x span ih =>
    obtain ⟨hfirst, hrest⟩ := List.isChain_cons_cons.1 hchain
    rw [advanceWhile_of_go htext (hgo d x _ q htext hfirst), advance_within htext]
    exact ih ((List.suffix_cons x _).trans htext) hrest

/-- The loop of a move that leads onto the first character of its run. -/
theorem advanceWhile_advance {p : Window → Bool} {R : Char → Char → Prop}
    (hgo : RunsOn text p R)
    {span back : List Char} {stop : Char} (htext : span ++ stop :: back <:+ text)
    (hchain : (span ++ [stop]).IsChain R)
    (hstop : p (showing text (within stop back (q.advance (span ++ [stop])))) = false) :
    (showing text (within d (span ++ stop :: back) q)).advance.advanceWhile p =
      showing text (within stop back (q.advance (span ++ [stop]))) := by
  cases span with
  | nil =>
    rw [List.nil_append] at htext ⊢
    rw [advance_within htext]
    exact advanceWhile_of_not hstop
  | cons x span =>
    have hsplit : span ++ stop :: back = (span ++ [stop]) ++ back := by simp
    have htail : (span ++ [stop]) ++ back <:+ text := by
      rw [← hsplit]
      exact (List.suffix_cons x _).trans htext
    rw [List.cons_append] at htext ⊢
    rw [advance_within htext, hsplit, advanceWhile_of_isChain hgo htail hchain,
      List.getLast?_concat, Option.getD_some]
    exact advanceWhile_of_not hstop

theorem advanceWhile_advance_to_closing {p : Window → Bool} {R : Char → Char → Prop}
    (hgo : RunsOn text p R) (hout : RunsOut text p R)
    {span : List Char} (htext : span <:+ text) (hchain : (span ++ [frame]).IsChain R) :
    (showing text (within d span q)).advance.advanceWhile p =
      showing text (closing (q.advance span).right) := by
  cases span with
  | nil =>
    rw [advance_last]
    exact advanceWhile_of_not (hout.2 _)
  | cons x span =>
    rw [advance_within htext]
    exact advanceWhile_to_closing hgo hout ((List.suffix_cons x _).trans htext) hchain

/-! ## Slices -/

/-- The bounds of a slice that lies inside of the framed text. -/
def Inside (text : List Char) (bounds : Int × Int) : Prop :=
  1 ≤ bounds.1 ∧ bounds.1 ≤ bounds.2 ∧ bounds.2 ≤ (text.length : Int) + 1

/-- The offset of a part of the text, as a slice has it. -/
def offset (text rest : List Char) : Int := (text.length - rest.length : Nat) + 1

theorem slice_showing (span : List Char) {back : List Char} (h : span ++ back <:+ text)
    (c : Cursor) :
    (showing text c).slice (offset text (span ++ back)) (offset text back) = span := by
  obtain ⟨front, rfl⟩ := h
  have hstart : offset (front ++ (span ++ back)) (span ++ back) =
      ((front.length + 1 : Nat) : Int) := by
    simp [offset]
  have hstop : offset (front ++ (span ++ back)) back =
      ((front.length + span.length + 1 : Nat) : Int) := by
    simp [offset]
    omega
  rw [slice, hstart, hstop, unsigned_natCast, unsigned_natCast, buffer_showing,
    List.take_succ_cons, List.drop_succ_cons]
  simp [List.take_append]

theorem inside_offset (span : List Char) {back : List Char} (h : span ++ back <:+ text) :
    Inside text (offset text (span ++ back), offset text back) := by
  have hlength := h.length_le
  rw [List.length_append] at hlength
  simp only [Inside, offset, List.length_append]
  omega

/-- The index of a window behind a character is the offset of that character. -/
theorem index_of_cons {x : Char} (h : x :: rest <:+ text) :
    (showing text (within d rest q)).index = offset text (x :: rest) := by
  have hlength := h.length_le
  simp only [index_showing, Cursor.index, offset, List.length_cons] at hlength ⊢
  omega

theorem index_advance (h : rest <:+ text) (hne : rest ≠ []) :
    (showing text (within d rest q)).advance.index = offset text rest := by
  cases rest with
  | nil => exact absurd rfl hne
  | cons x rest => rw [advance_within h, index_of_cons h]

theorem index_add_one : (showing text (within d rest q)).index + 1 = offset text rest := rfl

end Window

end SharpLexer
