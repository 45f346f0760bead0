import SharpLexer.Cursor

/-!
# Reading a text to its end

`Cursor.readings` is the list of all readings from a cursor, the end mark
included.  The ways to read a whole text are views of that list: to read
on over errors, to stop at the first of them, or to refuse stray
characters as well.
-/

namespace SharpLexer

namespace Cursor

/-! ## All readings -/

/-- Reads on to the end mark, behind the readings already `done`, which
stand the last first. -/
def readingsAfter (done : List (Reading Outcome)) (c : Cursor) : List (Reading Outcome) :=
  let reading := c.next
  if _h : reading.isLast then (reading :: done).reverse
  else readingsAfter (reading :: done) reading.cursor
termination_by c.unread.length
decreasing_by exact unread_next_lt (by simpa using _h)

/-- The readings from a cursor up to the one that meets the end. -/
def readings (c : Cursor) : List (Reading Outcome) := readingsAfter [] c

theorem readingsAfter_step (done : List (Reading Outcome)) (c : Cursor) :
    readingsAfter done c =
      if c.next.isLast then (c.next :: done).reverse
      else readingsAfter (c.next :: done) c.next.cursor := by
  rw [readingsAfter]
  by_cases h : c.next.isLast = true <;> simp [h]

theorem readingsAfter_eq (done : List (Reading Outcome)) (c : Cursor) :
    readingsAfter done c = done.reverse ++ readings c := by
  unfold readings
  induction hn : c.unread.length using Nat.strongRecOn generalizing done c with
  | ind n ih =>
    rw [readingsAfter_step done, readingsAfter_step []]
    by_cases h : c.next.isLast = true
    · simp [h]
    · have hlt := unread_next_lt (by simpa using h)
      simp only [h]
      rw [ih _ (hn ▸ hlt) (c.next :: done) _ rfl, ih _ (hn ▸ hlt) [c.next] _ rfl]
      simp

/-- The readings are the next one and, unless that meets the end, those
behind it. -/
theorem readings_eq (c : Cursor) :
    c.readings = if c.next.isLast then [c.next] else c.next :: c.next.cursor.readings := by
  rw [readings, readingsAfter_step]
  by_cases h : c.next.isLast = true <;> simp [h, readingsAfter_eq [_]]

/-! ## Ways to read on -/

/-- The list up to and including the first element with `p`. -/
def upTo {α : Type} (p : α → Bool) (list : List α) : List α :=
  list.takeWhile (!p ·) ++ (list.dropWhile (!p ·)).take 1

/-- What was reported in some readings from `c`, and the cursor after
them, with a result. -/
def summarize {α : Type} (c : Cursor) (readings : List (Reading Outcome)) (value : α) :
    Reading α :=
  ⟨value, readings.flatMap (·.events), (readings.getLast?.map (·.cursor)).getD c⟩

/-- The next outcome, or nothing at the end of the text. -/
def next? (c : Cursor) : Reading (Option Outcome) :=
  let reading := c.next
  ⟨if reading.isLast then none else some reading.value, reading.events, reading.cursor⟩

/-- The outcomes of some readings, without the end mark. -/
def outcomes (readings : List (Reading Outcome)) : List Outcome :=
  (readings.filter (!·.isLast)).map (·.value)

/-- Reads to the end of the text, over errors. -/
def drain (c : Cursor) : Reading (List Outcome) :=
  let readings := c.readings
  c.summarize readings (outcomes readings)

/-- The readings up to the first error, or up to the end. -/
def cautious (c : Cursor) : List (Reading Outcome) := upTo (·.failed) c.readings

/-- Reads up to the first error, which is then the result. -/
def collect (c : Cursor) : Reading (Except Error (List Token)) :=
  let readings := c.cautious
  c.summarize readings ((outcomes readings).mapM id)

end Cursor

/-! ## A whole text at once -/

/-- An outcome with a stray character taken for an error. -/
def Outcome.strict : Outcome → Outcome
  | .ok token =>
    if token.kind = .stray then
      .error ⟨.unrecognizedCharacter (token.lexeme.toList.head?.getD Cursor.nothing),
        token.position⟩
    else .ok token
  | .error error => .error error

/-- The tokens of a text, the end mark included.  The first error, or the
first stray character, is the result instead. -/
def tokenize (source : String) : Except Error (List Token) := do
  let opened ← Cursor.ofSource source
  opened.cursor.readings.mapM fun reading => Outcome.strict reading.value

end SharpLexer
