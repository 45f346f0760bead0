import SharpLexer.Proofs.Lines
import SharpLexer.Proofs.Listing
import SharpLexer.Proofs.Skipping

/-!
# What a reading reports

A reading reports the comments that it skips, in their order, then a stray character if
that is what it comes to, and then its token.  It reports nothing else.

* `Trivia.comments` are the comments of a gap with their offsets in the text, and
  `Trivia.reported_events` says what is reported of each of them.
* `Outcome.warnings` is what an outcome is warned about, and `Item.events_eq` says that
  an item is reported by its outcome alone.
* `Cursor.events_next` puts the gap and the outcome together for one reading.
-/

namespace SharpLexer

open Trivia (ClosedGap LastGap gapText)

/-! ## Comments -/

namespace Trivia

/-- A piece that is reported. -/
def isComment : Trivia → Bool
  | blank _ => false
  | line _ _ => true
  | block _ => true

/-- The comments of a gap that starts at `offset`, each with its own offset. -/
def comments (offset : Nat) : List Trivia → List (Nat × Trivia)
  | [] => []
  | piece :: gap =>
    if piece.isComment then (offset, piece) :: comments (offset + piece.text.length) gap
    else comments (offset + piece.text.length) gap

/-- A comment stands in the text at its offset. -/
theorem prefix_drop_of_mem_comments {comment : Nat × Trivia} {gap : List Trivia} {front : List Char}
    (h : comment ∈ comments front.length gap) (back : List Char) :
    comment.2.text <+: (front ++ (gapText gap ++ back)).drop comment.1 := by
  induction gap generalizing front with
  | nil => exact absurd h List.not_mem_nil
  | cons piece gap ih =>
    have hrest : comment ∈ comments (front ++ piece.text).length gap →
        comment.2.text <+: (front ++ (gapText (piece :: gap) ++ back)).drop comment.1 := by
      intro hmem
      simpa using ih hmem
    rw [List.length_append] at hrest
    rw [comments] at h
    split at h
    · rcases List.mem_cons.1 h with rfl | hmem
      · simp
      · exact hrest hmem
    · exact hrest h

theorem events_append (before : Position) (front back : List Trivia) :
    events before (front ++ back) =
      events before front ++ events (before.advance (gapText front)) back := by
  induction front generalizing before with
  | nil => rfl
  | cons piece front ih =>
    rw [List.cons_append, events_cons, events_cons, ih, gapText_cons, Position.advance_append,
      List.append_assoc]

/-- What is reported of a comment at an offset of the text.  Of a line comment it is the
line that the reader stands on behind it. -/
inductive Reported (text : List Char) : Nat × Trivia → Event → Prop where
  | line (offset : Nat) (body : List Char) (newline : Bool) :
      Reported text (offset, .line body newline)
        (.skippedLine ((Position.ofOffset text offset).line + if newline then 1 else 0))
  | block (offset : Nat) (body : List Char) :
      Reported text (offset, .block body) (.skippedBlock (Position.ofOffset text offset))

theorem wellFormed_of_lastGap {gap : List Trivia} (h : LastGap gap) :
    ∀ piece ∈ gap, piece.WellFormed := by
  rcases h with hclosed | ⟨front, body, rfl, hfront, hbody⟩
  · exact fun piece hpiece => (hclosed piece hpiece).1
  · intro piece hpiece
    rcases List.mem_append.1 hpiece with hmem | hmem
    · exact (hfront piece hmem).1
    · obtain rfl := List.mem_singleton.1 hmem
      exact hbody

/-- A line comment leads to the next line if a newline ends it. -/
theorem line_advance_line {body : List Char} {newline : Bool}
    (h : (line body newline).WellFormed) (p : Position) :
    (p.advance (line body newline).text).line = p.line + if newline then 1 else 0 := by
  have hbody : body.count '\n' = 0 := List.count_eq_zero.2 h.1
  rw [Position.line_advance, text]
  cases newline <;> simp [hbody]

/-- The comments of a gap are reported one by one, in their order and by their places. -/
theorem reported_events {gap : List Trivia} (hgap : ∀ piece ∈ gap, piece.WellFormed)
    {text front back : List Char} (htext : text = front ++ (gapText gap ++ back)) :
    List.Forall₂ (Reported text) (comments front.length gap)
      (events (Position.start.advance front) gap) := by
  -- `front` grows by each piece, so its length is the offset of the next one
  induction gap generalizing front with
  | nil => exact .nil
  | cons piece gap ih =>
    obtain ⟨hpiece, hgap⟩ := List.forall_mem_cons.1 hgap
    have hbehind : text = (front ++ piece.text) ++ (gapText gap ++ back) := by simp [htext]
    have hrest := ih hgap hbehind
    rw [List.length_append, Position.advance_append] at hrest
    have hplace : (Position.start.advance front).right = Position.ofOffset text front.length := by
      rw [htext]
      exact Position.right_advance_eq_ofOffset front _
    rw [events_cons]
    cases piece with
    | blank c => exact hrest
    | line body newline =>
      have hline : (Position.start.advance front).line =
          (Position.ofOffset text front.length).line := by
        rw [← hplace]
        rfl
      rw [event?, line_advance_line hpiece, hline]
      exact .cons (.line front.length body newline) hrest
    | block body =>
      rw [event?, hplace]
      exact .cons (.block front.length body) hrest

end Trivia

/-! ## Outcomes -/

/-- The character of a stray token. -/
def Token.character (token : Token) : Char := token.lexeme.toList.head?.getD Cursor.nothing

namespace Outcome

/-- The stray token of an outcome, if it is one. -/
def stray? : Outcome → Option Token
  | .ok token => if token.kind = .stray then some token else none
  | .error _ => none

/-- What an outcome is warned about: a stray token, by its character and its place. -/
def warnings (outcome : Outcome) : List Event :=
  outcome.stray?.toList.map fun token => .unrecognized token.character token.position

/-- Nothing else is warned about. -/
theorem warnings_eq_nil {outcome : Outcome}
    (h : ∀ token, outcome = .ok token → token.kind ≠ .stray) : outcome.warnings = [] := by
  cases outcome with
  | ok token => simp [warnings, stray?, h token rfl]
  | error error => rfl

theorem stray?_eq_some_iff {outcome : Outcome} {token : Token} :
    outcome.stray? = some token ↔ outcome = .ok token ∧ token.kind = .stray := by
  cases outcome with
  | error error => simp [stray?]
  | ok other =>
    rw [stray?, Except.ok.injEq]
    split
    · next hstray =>
      rw [Option.some.injEq]
      exact ⟨fun heq => ⟨heq, heq ▸ hstray⟩, fun h => h.1⟩
    · next hstray =>
      refine ⟨fun heq => absurd heq (by simp), ?_⟩
      rintro ⟨rfl, hkind⟩
      exact absurd hkind hstray

theorem warnings_plain {kind : Kind} (hkind : kind ≠ .stray) (lexeme : List Char)
    (p : Position) : warnings (.ok (.plain kind lexeme p)) = [] := by
  apply warnings_eq_nil
  intro token htoken
  rw [← Except.ok.inj htoken]
  exact hkind

theorem warnings_stray (c : Char) (p : Position) :
    warnings (.ok (.plain .stray [c] p)) = [.unrecognized c p] := by
  simp [warnings, stray?, Token.character, Token.plain]

end Outcome

/-- What is reported of an item can be told from its outcome. -/
theorem Item.events_eq {item : Item} (hshape : item.WellFormed) (p : Position) :
    item.events p = (item.outcome p).warnings ++ produced (item.outcome p) := by
  by_cases hstray : ∃ c, item = stray c
  · obtain ⟨c, rfl⟩ := hstray
    rw [outcome, Outcome.warnings_stray]
    rfl
  · have hquiet : (item.outcome p).warnings = [] := by
      apply Outcome.warnings_eq_nil
      intro token houtcome hkind
      obtain ⟨c, -, hitem, -⟩ := eq_stray_of_outcome hshape houtcome hkind
      exact hstray ⟨c, hitem⟩
    rw [hquiet, List.nil_append]
    exact events_eq_produced (fun c hitem => hstray ⟨c, hitem⟩) p

/-! ## One reading -/

namespace Cursor

variable {text rest : List Char} {c : Cursor} {gap : List Trivia}

/-- A reading reports the gap that it skips, and then its outcome. -/
theorem events_next (h : Trivia.LongestGap c.unread gap rest) :
    c.next.events =
      Trivia.events c.position gap ++ (c.next.value.warnings ++ Item.produced c.next.value) := by
  rcases c.next_cases with
    ⟨last, hlast, hunread, hnext⟩ | ⟨closed, item, tail, hclosed, hshape, hstops, hunread, hnext⟩
  · have hlongest := Trivia.longestGap_of_lastGap hlast
    rw [← hunread] at hlongest
    obtain ⟨rfl, -⟩ := h.eq hlongest
    rw [hnext]
    rfl
  · have hstop := Item.head?_eq_none_of_wellFormed hshape hstops
    obtain ⟨rfl, -⟩ := h.eq_of_closedGap hclosed hstop hunread
    rw [hnext]
    exact congrArg (Trivia.events c.position closed ++ ·) (Item.events_eq hshape _)

/-- A stray token is the one character that it names. -/
theorem lexeme_of_stray {token : Token} (h : c.next.value.stray? = some token) :
    token.lexeme.toList = [token.character] := by
  obtain ⟨hvalue, hstray⟩ := Outcome.stray?_eq_some_iff.1 h
  obtain ⟨d, -, hlexeme⟩ := exists_stray_of_kind hvalue hstray
  rw [Token.character, hlexeme]
  rfl

/-- What was read is as long as what is ahead leaves over. -/
theorem exists_front_at_offset (hstands : c.StandsIn text) :
    ∃ front, text = front ++ c.unread ∧ text.length - c.unread.length = front.length ∧
      (c.unread ≠ [] → c.position = Position.start.advance front) := by
  obtain ⟨front, htext, hplace⟩ := exists_front_of_standsIn hstands
  refine ⟨front, htext, ?_, hplace⟩
  have hlength := congrArg List.length htext
  rw [List.length_append] at hlength
  omega

theorem prefix_drop_of_mem_comments (hstands : c.StandsIn text)
    (h : Trivia.LongestGap c.unread gap rest) {comment : Nat × Trivia}
    (hmem : comment ∈ Trivia.comments (text.length - c.unread.length) gap) :
    comment.2.text <+: text.drop comment.1 := by
  obtain ⟨front, htext, hoffset, -⟩ := exists_front_at_offset hstands
  rw [hoffset] at hmem
  rw [htext, h.text_eq]
  exact Trivia.prefix_drop_of_mem_comments hmem rest

/-- Of the gap that it skips, a reading reports the comments. -/
theorem reported_next (hstands : c.StandsIn text) (h : Trivia.LongestGap c.unread gap rest) :
    List.Forall₂ (Trivia.Reported text)
      (Trivia.comments (text.length - c.unread.length) gap) (Trivia.events c.position gap) := by
  obtain ⟨front, htext, hoffset, hplace⟩ := exists_front_at_offset hstands
  by_cases hne : c.unread = []
  · -- nothing is ahead, so nothing is skipped
    have hnil : gapText gap = [] := by
      have hunread := h.text_eq
      rw [hne] at hunread
      exact (List.append_eq_nil_iff.1 hunread.symm).1
    obtain rfl : gap = [] := by
      cases gap with
      | nil => rfl
      | cons piece gap => simp [Trivia.text_ne_nil] at hnil
    exact .nil
  · rw [hoffset, hplace hne]
    exact Trivia.reported_events (Trivia.wellFormed_of_lastGap h.lastGap)
      (by rw [htext, ← h.text_eq])

end Cursor

end SharpLexer
