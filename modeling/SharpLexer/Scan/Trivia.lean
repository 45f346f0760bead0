import SharpLexer.Event
import SharpLexer.Text.Blank

/-!
# What stands between tokens

The gap in front of a token is made of blanks and of comments.

* A line comment runs from `//` to its newline or to the end of the text.
  With a third slash it is documentation, which is a token and no gap.
* A block comment runs from `/*` to the first `*/` behind it.  One that is
  never closed is no gap either.

`Trivia.head?` reads one such piece and `Trivia.split` all of them.
Neither loses a character: what was read and what is left make up the
text again.
-/

namespace SharpLexer

/-- One piece of the gap between two tokens. -/
inductive Trivia where
  | blank (c : Char)
  /-- A line comment, and whether a newline ends it. -/
  | line (body : List Char) (newline : Bool)
  | block (body : List Char)
  deriving DecidableEq

namespace Trivia

/-- The characters of a piece. -/
def text : Trivia → List Char
  | blank c => [c]
  | line body newline => '/' :: '/' :: (body ++ if newline then ['\n'] else [])
  | block body => '/' :: '*' :: (body ++ ['*', '/'])

/-! ## Reading one piece -/

/-- Looks for the end of a block comment.  `body` holds what was passed
over, the last character first. -/
def closeAfter (body : List Char) : List Char → Option (List Char × List Char)
  | '*' :: '/' :: rest => some (body.reverse, rest)
  | c :: rest => closeAfter (c :: body) rest
  | [] => none

/-- The text up to the first `*/`, and the text behind it. -/
def close? (text : List Char) : Option (List Char × List Char) := closeAfter [] text

/-- A character other than a newline. -/
def inLine (c : Char) : Bool := c != '\n'

/-- The piece at the head of a text, and the text behind it. -/
def head? : List Char → Option (Trivia × List Char)
  | '/' :: '/' :: rest =>
    if rest.head? = some '/' then none
    else
      match rest.dropWhile inLine with
      | [] => some (line (rest.takeWhile inLine) false, [])
      | _ :: after => some (line (rest.takeWhile inLine) true, after)
  | '/' :: '*' :: rest => (close? rest).map fun (body, after) => (block body, after)
  | c :: rest => if Text.isBlank c then some (blank c, rest) else none
  | [] => none

theorem closeAfter_eq_some {body text before after : List Char}
    (h : closeAfter body text = some (before, after)) :
    before ++ '*' :: '/' :: after = body.reverse ++ text := by
  fun_induction closeAfter body text with
  | case1 body rest =>
    obtain ⟨rfl, rfl⟩ := by simpa using h
    rfl
  | case2 body c rest _ ih => simpa using ih h
  | case3 => simp at h

theorem close?_eq_some {text before after : List Char}
    (h : close? text = some (before, after)) : before ++ '*' :: '/' :: after = text := by
  simpa using closeAfter_eq_some h

/-- A piece and what stands behind it make up the text. -/
theorem text_append_of_head? {text rest : List Char} {piece : Trivia}
    (h : head? text = some (piece, rest)) : piece.text ++ rest = text := by
  unfold head? at h
  split at h
  · next body =>
    split at h
    · simp at h
    · split at h
      · next hrest =>
        obtain ⟨rfl, rfl⟩ := by simpa using h
        have := List.takeWhile_append_dropWhile (p := inLine) (l := body)
        simp_all [Trivia.text]
      · next c after hrest =>
        obtain ⟨rfl, rfl⟩ := by simpa using h
        have hsplit := List.takeWhile_append_dropWhile (p := inLine) (l := body)
        have hc : c = '\n' := by
          have := List.head?_dropWhile_not inLine body
          simpa [hrest, inLine] using this
        subst hc
        simpa [Trivia.text, hrest] using hsplit
  · simp only [Option.map_eq_some_iff, Prod.exists] at h
    obtain ⟨body, after, hclose, hpair⟩ := h
    obtain ⟨rfl, rfl⟩ := by simpa using hpair
    simpa [Trivia.text] using close?_eq_some hclose
  · split at h
    · obtain ⟨rfl, rfl⟩ := by simpa using h
      rfl
    · simp at h
  · simp at h

theorem text_ne_nil (piece : Trivia) : piece.text ≠ [] := by
  cases piece <;> simp [Trivia.text]

theorem head?_length {text rest : List Char} {piece : Trivia}
    (h : head? text = some (piece, rest)) : rest.length < text.length := by
  have hpos : 0 < piece.text.length := List.length_pos_iff.2 piece.text_ne_nil
  have := congrArg List.length (text_append_of_head? h)
  simp at this
  omega

/-! ## Reading a whole gap -/

/-- Reads pieces as long as there are any, behind those already `read`,
which stand the last first. -/
def splitAfter (read : List Trivia) (text : List Char) : List Trivia × List Char :=
  match _h : head? text with
  | some (piece, rest) => splitAfter (piece :: read) rest
  | none => (read.reverse, text)
termination_by text.length
decreasing_by exact head?_length _h

/-- The gap at the head of a text, and the text behind it. -/
def split (text : List Char) : List Trivia × List Char := splitAfter [] text

/-- The characters of a gap. -/
def gapText (gap : List Trivia) : List Char := gap.flatMap text

theorem splitAfter_eq (read : List Trivia) (text : List Char) :
    splitAfter read text = (read.reverse ++ (split text).1, (split text).2) := by
  unfold split
  induction hn : text.length using Nat.strongRecOn generalizing read text with
  | ind n ih =>
    rw [splitAfter.eq_def read, splitAfter.eq_def []]
    split
    · next piece rest h =>
      have hlt := head?_length h
      rw [ih _ (hn ▸ hlt) (piece :: read) rest rfl, ih _ (hn ▸ hlt) [piece] rest rfl]
      simp
    · simp

/-- A gap is its first piece and the gap behind that. -/
theorem split_of_head? {text rest : List Char} {piece : Trivia}
    (h : head? text = some (piece, rest)) :
    split text = (piece :: (split rest).1, (split rest).2) := by
  rw [split, splitAfter]
  split
  · next h' =>
    obtain ⟨rfl, rfl⟩ := by simpa using h.symm.trans h'
    simp [splitAfter_eq [_]]
  · next h' => simp [h] at h'

/-- Where no piece stands, the gap is empty. -/
theorem split_of_head?_eq_none {text : List Char} (h : head? text = none) :
    split text = ([], text) := by
  rw [split, splitAfter]
  split
  · next h' => simp [h] at h'
  · rfl

/-- A gap and what stands behind it make up the text. -/
theorem gapText_append_split (text : List Char) :
    gapText (split text).1 ++ (split text).2 = text := by
  induction hn : text.length using Nat.strongRecOn generalizing text with
  | ind n ih =>
    subst hn
    cases h : head? text with
    | none => simp [split_of_head?_eq_none h, gapText]
    | some found =>
      obtain ⟨piece, rest⟩ := found
      have hrest := ih rest.length (head?_length h) rest rfl
      rw [split_of_head? h]
      simp only [gapText, List.flatMap_cons, List.append_assoc] at hrest ⊢
      rw [hrest, text_append_of_head? h]

/-- A gap never grows the text. -/
theorem length_split (text : List Char) : (split text).2.length ≤ text.length := by
  have := congrArg List.length (gapText_append_split text)
  simp at this
  omega

/-! ## The account of a gap -/

/-- What is reported of a piece behind the place `before`.  A comment that
a newline ends is reported from the line which that newline opens. -/
def event? (before : Position) (piece : Trivia) : Option Event :=
  match piece with
  | blank _ => none
  | line _ _ => some (.skippedLine (before.advance piece.text).line)
  | block _ => some (.skippedBlock before.right)

/-- Reports a gap behind the place `before`, after what is already
`reported`, which stands the last first. -/
def eventsAfter (reported : List Event) (before : Position) : List Trivia → List Event
  | [] => reported.reverse
  | piece :: gap =>
    eventsAfter ((event? before piece).toList ++ reported) (before.advance piece.text) gap

/-- What is reported of a gap behind the place `before`. -/
def events (before : Position) (gap : List Trivia) : List Event := eventsAfter [] before gap

theorem eventsAfter_eq (reported : List Event) (before : Position) (gap : List Trivia) :
    eventsAfter reported before gap = reported.reverse ++ events before gap := by
  unfold events
  induction gap generalizing reported before with
  | nil => simp [eventsAfter]
  | cons piece gap ih =>
    rw [eventsAfter, eventsAfter, ih, ih ((event? before piece).toList ++ [])]
    cases event? before piece <;> simp

@[simp] theorem events_nil (before : Position) : events before [] = [] := rfl

@[simp] theorem events_cons (before : Position) (piece : Trivia) (gap : List Trivia) :
    events before (piece :: gap) =
      (event? before piece).toList ++ events (before.advance piece.text) gap := by
  rw [events, eventsAfter, eventsAfter_eq]
  cases event? before piece <;> simp

end Trivia

end SharpLexer
