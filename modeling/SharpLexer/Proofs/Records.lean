import SharpLexer.Proofs.Window.Account

/-!
# The log of a run is a complete account

Every event of a run makes a record of the log, which is a level and a message.  The
records of one reading are those of the comments that it skips, a warning if it comes to
a stray character, and the token if it comes to one.  So the warnings of a run are as
many as its stray characters, and in the same order.

* `Trivia.Records` and `Outcome.records` say which records belong to a comment and to an
  outcome, without looking at events.
* `Cursor.warnings_recordsUpTo` finds the warnings of a run.
* `log_of_ofSource` puts these together for every run over a text.
-/

namespace SharpLexer

/-! ## Records -/

/-- A record of the log. -/
abbrev Record := Level × String

/-- The record that an event makes. -/
def Event.record (event : Event) : Record := (event.level, event.message)

namespace Token

/-- The record of a token. -/
def shown (token : Token) : Record := (.trace, token.render)

/-- The warning about a stray token.  It names the place and, unless that is a null
character, the character. -/
def warning (token : Token) : Record :=
  (.warn,
    if token.character = '\x00' then "NUL character in source at " ++ token.position.render
    else
      "unrecognized character " ++ Text.quoteChar token.character ++ " at " ++
        token.position.render)

end Token

/-- The records of an outcome.  An error has none. -/
def Outcome.records : Outcome → List Record
  | .ok token => if token.kind = .stray then [token.warning, token.shown] else [token.shown]
  | .error _ => []

/-- The record of a comment at an offset of the text.  That of a line comment names some
line, and that of a block comment the place of its slash. -/
inductive Trivia.Records (text : List Char) : Nat × Trivia → Record → Prop where
  | line (offset : Nat) (body : List Char) (newline : Bool) (number : Nat) :
      Records text (offset, .line body newline)
        (.trace, "skipped line comment ending on line " ++ number.repr)
  | block (offset : Nat) (body : List Char) :
      Records text (offset, .block body)
        (.trace,
          "skipped block comment starting at " ++ (Position.ofOffset text offset).render)

theorem Trivia.Reported.records {text : List Char} {comment : Nat × Trivia} {event : Event}
    (h : Reported text comment event) : Records text comment event.record := by
  cases h with
  | line offset body newline => exact .line offset body newline _
  | block offset body => exact .block offset body

theorem Outcome.records_eq (outcome : Outcome) :
    (outcome.warnings ++ Item.produced outcome).map Event.record = outcome.records := by
  cases outcome with
  | error error => rfl
  | ok token =>
    by_cases hstray : token.kind = .stray
    · simp only [warnings, stray?, records, if_pos hstray]
      rfl
    · simp only [warnings, stray?, records, if_neg hstray]
      rfl

/-- Among the records of an outcome there is a warning just for a stray token. -/
theorem Outcome.filter_records (outcome : Outcome) :
    outcome.records.filter (·.1 = .warn) = outcome.stray?.toList.map Token.warning := by
  cases outcome with
  | error error => rfl
  | ok token =>
    by_cases hstray : token.kind = .stray
    · simp only [stray?, records, if_pos hstray]
      rfl
    · simp only [stray?, records, if_neg hstray]
      rfl

/-! ## Runs -/

namespace Cursor

variable {text : List Char} {c : Cursor}

/-- The records of the first `n` readings. -/
def recordsUpTo (c : Cursor) (n : Nat) : List Record :=
  (List.range n).flatMap fun i => (c.later i).next.events.map Event.record

/-- The records of one reading: the comments that it skips, and then its outcome. -/
theorem records_next (h : c.StandsIn text) :
    ∃ gap rest skipped, Trivia.LongestGap c.unread gap rest ∧
      (∀ comment ∈ Trivia.comments (text.length - c.unread.length) gap,
        comment.2.text <+: text.drop comment.1) ∧
      List.Forall₂ (Trivia.Records text)
        (Trivia.comments (text.length - c.unread.length) gap) skipped ∧
      c.next.events.map Event.record = skipped ++ c.next.value.records := by
  have hlongest := Trivia.longestGap_split c.unread
  refine ⟨_, _, (Trivia.events c.position (Trivia.split c.unread).1).map Event.record, hlongest,
    fun _ => prefix_drop_of_mem_comments h hlongest, ?_, ?_⟩
  · exact List.forall₂_map_right_iff.2 ((reported_next h hlongest).imp fun _ _ hone => hone.records)
  · rw [events_next hlongest, List.map_append, Outcome.records_eq]

/-- A reading warns about its outcome only. -/
theorem warnings_next (c : Cursor) :
    (c.next.events.map Event.record).filter (·.1 = .warn) =
      c.next.value.stray?.toList.map Token.warning := by
  -- what is reported of the gap is below the level of a warning
  have hquiet : ((Trivia.events c.position (Trivia.split c.unread).1).map Event.record).filter
      (·.1 = .warn) = [] := by
    simp only [List.filter_eq_nil_iff, List.forall_mem_map, decide_eq_true_eq]
    intro event hevent hwarn
    exact absurd ((Trivia.level_of_mem_events hevent).symm.trans hwarn) (by decide)
  rw [events_next (Trivia.longestGap_split c.unread), List.map_append, List.filter_append, hquiet,
    List.nil_append, Outcome.records_eq, Outcome.filter_records]

/-- The warnings of a run are those about its stray tokens, one for each of them. -/
theorem warnings_recordsUpTo (c : Cursor) (n : Nat) :
    (c.recordsUpTo n).filter (·.1 = .warn) =
      ((c.outcomesUpTo n).filterMap Outcome.stray?).map Token.warning := by
  induction n with
  | zero => rfl
  | succ n ih =>
    have hlast : [c.outcomeAt n].filterMap Outcome.stray? = (c.outcomeAt n).stray?.toList := by
      rw [List.filterMap_cons]
      cases (c.outcomeAt n).stray? <;> rfl
    simp only [recordsUpTo, outcomesUpTo, List.range_succ, List.flatMap_append, List.filter_append,
      List.map_append, List.filterMap_append] at ih ⊢
    rw [ih, List.flatMap_singleton, warnings_next, List.map_singleton, hlast]
    rfl

end Cursor

/-- The log of a run over a text.  The records of each reading are one for every comment
that it skips, in their order, and then those of its outcome, and a reader that takes the
text turn by turn reports the same on the way.  The warnings of a run are one for every
stray character, in their order. -/
theorem log_of_ofSource {source : String} {opened : Reading Unit}
    (h : Cursor.ofSource source = .ok opened) :
    (∀ n, ∃ gap rest skipped,
        let comments := Trivia.comments
          (source.toList.length - (opened.cursor.later n).unread.length) gap
        Trivia.LongestGap (opened.cursor.later n).unread gap rest ∧
          (∀ comment ∈ comments, comment.2.text <+: source.toList.drop comment.1) ∧
          List.Forall₂ (Trivia.Records source.toList) comments skipped ∧
          (opened.cursor.later n).next.events.map Event.record =
            skipped ++ (opened.cursor.outcomeAt n).records) ∧
      (∀ n, ∀ token ∈ (opened.cursor.outcomeAt n).stray?,
        token.lexeme.toList = [token.character]) ∧
      (∀ n w, Window.Lockstep source w (opened.cursor.later n) →
        w.account = (opened.cursor.later n).next.events) ∧
      ∀ n, (opened.events.map Event.record ++ opened.cursor.recordsUpTo n).filter (·.1 = .warn) =
        ((opened.cursor.outcomesUpTo n).filterMap Outcome.stray?).map Token.warning := by
  obtain ⟨-, rfl⟩ := Cursor.ofSource_eq_ok_iff.1 h
  have hstands := fun n => Cursor.standsIn_later (Cursor.standsIn_start source.toList) n
  refine ⟨fun n => Cursor.records_next (hstands n), ?_, ?_, ?_⟩
  · intro n token htoken
    exact Cursor.lexeme_of_stray htoken
  · intro n w hlockstep
    obtain ⟨rfl, -⟩ := Window.showing_of_lockstep hlockstep
    exact Window.account_showing (Window.unread_suffix_of_standsIn (hstands n))
  · intro n
    exact Cursor.warnings_recordsUpTo _ n

/-- A null character between two comments. -/
def markedSource : String := "/* */\x00// c\n"

/-- The two readings of `markedSource` report a comment each, and the first of them warns. -/
theorem log_of_markedSource :
    Cursor.ofSource markedSource = .ok ⟨(), [.opened 11], Cursor.start markedSource.toList⟩ ∧
      (Cursor.start markedSource.toList).next.events.map Event.record =
        [(.trace, "skipped block comment starting at 1:1"),
          (.warn, "NUL character in source at 1:6"),
          (.trace, "Token(kind=Error, lexeme=\"\\0\", line=1, column=6)")] ∧
      ((Cursor.start markedSource.toList).recordsUpTo 2).filter (·.1 = .warn) =
        [(.warn, "NUL character in source at 1:6")] := by
  have hopened : Cursor.ofSource markedSource =
      .ok ⟨(), [.opened 11], Cursor.start markedSource.toList⟩ :=
    Cursor.ofSource_eq_ok_iff.2 ⟨by decide, rfl⟩
  obtain ⟨hreadings, -, -, hwarnings⟩ := log_of_ofSource hopened
  have hbody : ¬ ['*', '/'] <:+: [' '] := by decide
  have hclosed : Trivia.ClosedGap [.block [' ']] :=
    Trivia.closedGap_cons.2 ⟨hbody, rfl, Trivia.closedGap_nil⟩
  have hstop : Trivia.head? ('\x00' :: "// c\n".toList) = none := by decide
  have hgap := Trivia.longestGap_of_closedGap hclosed hstop
  obtain ⟨gap, rest, skipped, hlongest, -, hskipped, hrecords⟩ := hreadings 0
  obtain ⟨rfl, -⟩ := hlongest.eq hgap
  have hcomments : Trivia.comments
      (markedSource.toList.length - ((Cursor.start markedSource.toList).later 0).unread.length)
      [.block [' ']] = [(0, .block [' '])] := by
    decide
  obtain ⟨record, others, hrecord, hothers, rfl⟩ :=
    List.forall₂_cons_left_iff.1 (hcomments ▸ hskipped)
  obtain rfl := List.forall₂_nil_left_iff.1 hothers
  cases hrecord
  refine ⟨hopened, hrecords.trans ?_, (hwarnings 2).trans ?_⟩
  · decide +kernel
  · decide +kernel

end SharpLexer
