import SharpLexer.Command.Run
import SharpLexer.Proofs.Agreement
import SharpLexer.Proofs.TokenLine

/-!
# What a run of the command shows

The command reads a text on its own and lists what it finds, a token on a line.
It differs from `tokenize` in what it takes for a failure: a stray character is
listed like any other token.  So both are compared with one account of a run.

* `Cursor.Gathers` says which tokens a run has gathered where it stops, given a
  judge of its outcomes, and `Gathered` says it of a whole text.
  `Cursor.tokens_of_gathers` is the run of `tokenize`, and
  `Cursor.cautious_of_gathers` that of the command.
* `Cursor.gathers_id_of_strict` says that both gather the same, and log the
  progress of the run only, up to a fault other than a stray character.
* `listFile_of_gathered` puts these together for the two streams and
  the exit status of a run.
-/

namespace SharpLexer

/-! ## Gathering tokens -/

namespace Cursor

variable {judge : Outcome → Outcome} {c : Cursor} {tokens : List Token} {stop : Option Error}

/-- The tokens that are gathered one by one, up to and including the end mark,
or in front of the first outcome that the judge takes for an error. -/
inductive Gathers (judge : Outcome → Outcome) : Cursor → List Token → Option Error → Prop where
  | last {c : Cursor} {token : Token} (h : judge c.next.value = .ok token)
      (hend : token.isEof = true) : Gathers judge c [token] none
  | failed {c : Cursor} {error : Error} (h : judge c.next.value = .error error) :
      Gathers judge c [] (some error)
  | more {c : Cursor} {token : Token} {tokens : List Token} {stop : Option Error}
      (h : judge c.next.value = .ok token) (hend : token.isEof = false)
      (hrest : Gathers judge c.next.cursor tokens stop) :
      Gathers judge c (token :: tokens) stop

/-- Under a judge that makes up no tokens, every run stops. -/
theorem exists_gathers (hjudge : ∀ outcome token, judge outcome = .ok token → outcome = .ok token)
    (c : Cursor) : ∃ tokens stop, c.Gathers judge tokens stop := by
  induction hlength : c.unread.length using Nat.strongRecOn generalizing c with
  | ind length ih =>
    subst hlength
    cases hvalue : judge c.next.value with
    | error error => exact ⟨[], some error, .failed hvalue⟩
    | ok token =>
      cases hend : token.isEof with
      | true => exact ⟨[token], none, .last hvalue hend⟩
      | false =>
        have hlast : c.next.isLast = false := by
          rw [isLast_eq_isEnd, hjudge _ _ hvalue]
          exact hend
        obtain ⟨tokens, stop, hrest⟩ := ih _ (unread_next_lt hlast) _ rfl
        exact ⟨token :: tokens, stop, .more hvalue hend hrest⟩

/-- The tokens of a text are those that a strict judge lets gather. -/
theorem tokens_of_gathers (h : c.Gathers Outcome.strict tokens stop) :
    c.tokens = stop.elim (.ok tokens) .error := by
  induction h with
  | @last c token h hend =>
    obtain ⟨hvalue, hstray⟩ := Outcome.strict_eq_ok_iff.1 h
    exact tokens_eq_ok_iff.2 ⟨token, hvalue, hstray, Or.inl ⟨hend, rfl⟩⟩
  | failed h =>
    rw [tokens_eq, h]
    rfl
  | @more c token tokens stop h hend _ ih =>
    obtain ⟨hvalue, hstray⟩ := Outcome.strict_eq_ok_iff.1 h
    cases stop with
    | none => exact tokens_eq_ok_iff.2 ⟨token, hvalue, hstray, Or.inr ⟨hend, tokens, ih, rfl⟩⟩
    | some error =>
      have hrest : c.next.cursor.tokens = .error error := ih
      rw [tokens_eq, h, hvalue, hrest]
      simp [Except.bind, Outcome.isEnd, hend]

/-- The end mark is the last of the cautious readings. -/
theorem cautious_of_eof {token : Token} (hvalue : c.next.value = .ok token)
    (hend : token.isEof = true) : c.cautious = [c.next] := by
  apply cautious_of_stop
  left
  rw [isLast_eq_isEnd, hvalue]
  exact hend

/-- So is an error. -/
theorem cautious_of_error {error : Error} (hvalue : c.next.value = .error error) :
    c.cautious = [c.next] :=
  cautious_of_stop (Or.inr (by simp [Reading.failed, hvalue]))

theorem cautious_of_token {token : Token} (hvalue : c.next.value = .ok token)
    (hend : token.isEof = false) : c.cautious = c.next :: c.next.cursor.cautious := by
  apply cautious_of_goes_on
  · rw [isLast_eq_isEnd, hvalue]
    exact hend
  · simp [Reading.failed, hvalue]

/-- The cautious readings are those of the tokens, and that of the error where
there is one. -/
theorem cautious_of_gathers (h : c.Gathers id tokens stop) :
    c.cautious.map (·.value) = tokens.map .ok ++ stop.toList.map .error := by
  induction h with
  | @last c token h hend =>
    have hvalue : c.next.value = .ok token := h
    simp [cautious_of_eof hvalue hend, hvalue]
  | @failed c error h =>
    have hvalue : c.next.value = .error error := h
    simp [cautious_of_error hvalue, hvalue]
  | @more c token tokens stop h hend _ ih =>
    have hvalue : c.next.value = .ok token := h
    simp [cautious_of_token hvalue hend, hvalue, ih]

end Cursor

/-! ## What is logged on the way -/

/-- A gap is skipped without a word but for the progress. -/
theorem Trivia.level_of_mem_events {before : Position} {gap : List Trivia} {event : Event}
    (h : event ∈ events before gap) : event.level = .trace := by
  induction gap generalizing before with
  | nil => exact absurd h List.not_mem_nil
  | cons piece gap ih =>
    rw [events_cons] at h
    rcases List.mem_append.1 h with hpiece | hgap
    · cases piece with
      | blank c => exact absurd hpiece List.not_mem_nil
      | line body newline =>
        obtain rfl := List.mem_singleton.1 hpiece
        rfl
      | block body =>
        obtain rfl := List.mem_singleton.1 hpiece
        rfl
    · exact ih hgap

/-- Of the items only a stray character is warned about. -/
theorem Item.events_eq_produced {item : Item} (hstray : ∀ c, item ≠ stray c) (p : Position) :
    item.events p = produced (item.outcome p) := by
  cases item with
  | stray c => exact absurd rfl (hstray c)
  | _ => rfl

theorem Item.level_of_mem_events {item : Item} {p : Position}
    (hstray : ∀ token, item.outcome p = .ok token → token.kind ≠ .stray) {event : Event}
    (h : event ∈ item.events p) : event.level = .trace := by
  have hitem : ∀ c, item ≠ stray c := by
    rintro c rfl
    exact hstray _ rfl rfl
  rw [events_eq_produced hitem] at h
  cases houtcome : item.outcome p with
  | error error =>
    rw [houtcome] at h
    exact absurd h List.not_mem_nil
  | ok token =>
    rw [houtcome] at h
    obtain rfl := List.mem_singleton.1 h
    rfl

namespace Cursor

variable {c : Cursor} {tokens : List Token} {stop : Option Error}

/-- A reading reports its progress only, unless it gives a stray character. -/
theorem level_of_mem_events (hstray : ∀ token, c.next.value = .ok token → token.kind ≠ .stray)
    {event : Event} (h : event ∈ c.next.events) : event.level = .trace := by
  rcases c.next_cases with ⟨gap, -, -, hnext⟩ | ⟨gap, item, tail, -, -, -, -, hnext⟩
  · rw [hnext] at h
    rcases List.mem_append.1 h with hgap | hmark
    · exact Trivia.level_of_mem_events hgap
    · obtain rfl := List.mem_singleton.1 hmark
      rfl
  · rw [hnext] at h hstray
    rcases List.mem_append.1 h with hgap | hitem
    · exact Trivia.level_of_mem_events hgap
    · exact Item.level_of_mem_events hstray hitem

/-- Where nothing stray is met, a strict judge and none make no difference, and
nothing but the progress is reported. -/
theorem gathers_id_of_strict (h : c.Gathers Outcome.strict tokens stop)
    (hstop : ∀ error ∈ stop, ∀ d, error.fault ≠ .unrecognizedCharacter d) :
    c.Gathers id tokens stop ∧
      ∀ event ∈ c.cautious.flatMap (·.events), event.level = .trace := by
  induction h with
  | @last c token h hend =>
    obtain ⟨hvalue, hstray⟩ := Outcome.strict_eq_ok_iff.1 h
    refine ⟨.last hvalue hend, fun event hevent => ?_⟩
    rw [cautious_of_eof hvalue hend, List.flatMap_singleton] at hevent
    exact level_of_mem_events (by simp [hvalue, hstray]) hevent
  | @failed c error h =>
    rcases strict_eq_error_cases h with ⟨hvalue, -⟩ | ⟨token, d, -, -, -, -, rfl⟩
    · refine ⟨.failed hvalue, fun event hevent => ?_⟩
      rw [cautious_of_error hvalue, List.flatMap_singleton] at hevent
      exact level_of_mem_events (by simp [hvalue]) hevent
    · exact absurd rfl (hstop _ rfl d)
  | @more c token tokens stop h hend _ ih =>
    obtain ⟨hvalue, hstray⟩ := Outcome.strict_eq_ok_iff.1 h
    obtain ⟨hrest, hevents⟩ := ih hstop
    refine ⟨.more hvalue hend hrest, fun event hevent => ?_⟩
    rw [cautious_of_token hvalue hend, List.flatMap_cons] at hevent
    rcases List.mem_append.1 hevent with hfirst | hbehind
    · exact level_of_mem_events (by simp [hvalue, hstray]) hfirst
    · exact hevents event hbehind

end Cursor

/-- The tokens that are gathered of a whole text.  A text that cannot be opened
stops the run in front of the first. -/
def Gathered (judge : Outcome → Outcome) (source : String) (tokens : List Token)
    (stop : Option Error) : Prop :=
  match Cursor.ofSource source with
  | .error error => tokens = [] ∧ stop = some error
  | .ok opened => opened.cursor.Gathers judge tokens stop

section Gathered

variable {judge : Outcome → Outcome} {source : String} {tokens : List Token} {stop : Option Error}

theorem gathered_of_error {error : Error} (h : Cursor.ofSource source = .error error) :
    Gathered judge source tokens stop ↔ tokens = [] ∧ stop = some error := by
  rw [Gathered, h]

theorem gathered_of_ok {opened : Reading Unit} (h : Cursor.ofSource source = .ok opened) :
    Gathered judge source tokens stop ↔ opened.cursor.Gathers judge tokens stop := by
  rw [Gathered, h]

theorem exists_gathered
    (hjudge : ∀ outcome token, judge outcome = .ok token → outcome = .ok token)
    (source : String) : ∃ tokens stop, Gathered judge source tokens stop := by
  cases hopened : Cursor.ofSource source with
  | error error => exact ⟨[], some error, (gathered_of_error hopened).2 ⟨rfl, rfl⟩⟩
  | ok opened =>
    obtain ⟨tokens, stop, h⟩ := Cursor.exists_gathers hjudge opened.cursor
    exact ⟨tokens, stop, (gathered_of_ok hopened).2 h⟩

/-- The tokens of a text, or its error, are what a strict judge lets gather. -/
theorem tokenize_of_gathered (h : Gathered Outcome.strict source tokens stop) :
    tokenize source = stop.elim (.ok tokens) .error := by
  rw [tokenize]
  cases hopened : Cursor.ofSource source with
  | error error =>
    obtain ⟨rfl, rfl⟩ := (gathered_of_error hopened).1 h
    rfl
  | ok opened => exact Cursor.tokens_of_gathers ((gathered_of_ok hopened).1 h)

end Gathered

/-- The error of an outcome, if it is one. -/
def Outcome.error? : Outcome → Option Error
  | .ok _ => none
  | .error error => some error

namespace Command

/-! ## The two streams -/

/-- Tokens as they are listed, each with a newline behind it. -/
def lines (tokens : List Token) : String :=
  String.join (tokens.map fun token => token.render ++ "\n")

@[simp] theorem lines_nil : lines [] = "" := String.join_nil

theorem lines_cons (token : Token) (tokens : List Token) :
    lines (token :: tokens) = token.render ++ "\n" ++ lines tokens :=
  String.join_cons

/-- Every token takes one line, whatever its lexeme holds. -/
theorem count_newline_lines (tokens : List Token) :
    (lines tokens).toList.count '\n' = tokens.length := by
  induction tokens with
  | nil => simp
  | cons token tokens ih =>
    have htoken := List.count_eq_zero.2 token.newline_not_mem_render
    rw [lines_cons, String.toList_append, String.toList_append, List.count_append,
      List.count_append, htoken, ih, List.length_cons]
    simp [Nat.add_comm]

/-- What is listed of the readings of a run. -/
theorem join_listing {tokens : List Token} {stop : Option Error}
    {readings : List (Reading Outcome)}
    (h : readings.map (·.value) = tokens.map .ok ++ stop.toList.map .error) :
    String.join (readings.map fun reading => listing reading.value) = lines tokens := by
  have hlist : readings.map (fun reading => listing reading.value) =
      (readings.map (·.value)).map listing := by
    rw [List.map_map]
    rfl
  have htokens : (tokens.map Except.ok).map listing =
      tokens.map fun token => token.render ++ "\n" := by
    rw [List.map_map]
    rfl
  rw [hlist, h, List.map_append, htokens, String.join_append, lines]
  cases stop <;> simp [listing]

/-- The error of a run is the one that it stops at. -/
theorem firstError?_eq {tokens : List Token} {stop : Option Error}
    {readings : List (Reading Outcome)}
    (h : readings.map (·.value) = tokens.map .ok ++ stop.toList.map .error) :
    firstError? readings = stop := by
  have hvalues : firstError? readings = (readings.map (·.value)).findSome? Outcome.error? := by
    rw [List.findSome?_map]
    rfl
  have htokens : (tokens.map Except.ok).findSome? Outcome.error? = none := by
    rw [List.findSome?_eq_none_iff]
    intro outcome houtcome
    obtain ⟨token, -, rfl⟩ := List.mem_map.1 houtcome
    rfl
  rw [hvalues, h, List.findSome?_append, htokens]
  cases stop <;> rfl

/-- A log that no level passes is empty. -/
theorem logEvents_eq_empty {threshold : Threshold} {events : List Event}
    (h : ∀ event ∈ events, threshold.passes event.level = false) :
    logEvents threshold events = "" := by
  induction events with
  | nil => exact String.join_nil
  | cons event events ih =>
    obtain ⟨hevent, hevents⟩ := List.forall_mem_cons.1 h
    have hrest : String.join (events.map fun event =>
        logLine threshold .lexer event.level event.message) = "" := ih hevents
    rw [logEvents, List.map_cons, String.join_cons, hrest, logLine, hevent]
    rfl

/-! ## Runs -/

variable {source : String} {tokens : List Token} {stop : Option Error}

theorem exit_fail (error : Error) (source file stdout stderr : String) :
    (fail error source file stdout stderr).exit ≠ 0 ∧
      ((Diagnostic.ofError error source file).complete = true →
        (fail error source file stdout stderr).exit = 1) := by
  simp only [fail]
  split
  · exact ⟨Nat.one_ne_zero, fun _ => rfl⟩
  · next hbroken => exact ⟨by decide, fun hwhole => absurd hwhole hbroken⟩

/-- A run lists what it has gathered.  Its exit status tells whether it came to
the end mark. -/
theorem list_of_gathered (threshold : Threshold) (file : String)
    (h : Gathered id source tokens stop) :
    (list threshold file source).stdout = lines tokens ∧
      ((list threshold file source).exit = 0 ↔ stop = none) ∧
      ∀ error, stop = some error → (Diagnostic.ofError error source file).complete = true →
        (list threshold file source).exit = 1 := by
  cases hopened : Cursor.ofSource source with
  | error error =>
    obtain ⟨rfl, rfl⟩ := (gathered_of_error hopened).1 h
    obtain ⟨hexit, hwhole⟩ := exit_fail error source file "" ""
    simp only [list, hopened]
    refine ⟨lines_nil.symm, by simp [hexit], ?_⟩
    intro other hother hcomplete
    obtain rfl := Option.some.inj hother
    exact hwhole hcomplete
  | ok opened =>
    have hcautious := Cursor.cautious_of_gathers ((gathered_of_ok hopened).1 h)
    simp only [list, hopened, join_listing hcautious, firstError?_eq hcautious]
    cases stop with
    | none => simp
    | some error =>
      obtain ⟨hexit, hwhole⟩ := exit_fail error source file (lines tokens)
        (logEvents threshold (opened.events ++ opened.cursor.cautious.flatMap (·.events)))
      refine ⟨rfl, by simp [hexit], ?_⟩
      intro other hother hcomplete
      obtain rfl := Option.some.inj hother
      exact hwhole hcomplete

/-- Up to a fault other than a stray character, the command gathers the tokens
that `tokenize` does, and shows the diagnostic and no more. -/
theorem list_of_gathered_strict (file : String) {error : Error}
    (h : Gathered Outcome.strict source tokens (some error))
    (hfault : ∀ c, error.fault ≠ .unrecognizedCharacter c) :
    Gathered id source tokens (some error) ∧
      (list (some .warn) file source).stderr = (Diagnostic.ofError error source file).text := by
  cases hopened : Cursor.ofSource source with
  | error found =>
    obtain ⟨rfl, hstop⟩ := (gathered_of_error hopened).1 h
    obtain rfl := Option.some.inj hstop
    simp only [list, hopened]
    exact ⟨(gathered_of_error hopened).2 ⟨rfl, rfl⟩, String.empty_append⟩
  | ok opened =>
    obtain ⟨hgathers, hevents⟩ :=
      Cursor.gathers_id_of_strict ((gathered_of_ok hopened).1 h) (by simpa using hfault)
    have hlog : logEvents (some .warn)
        (opened.events ++ opened.cursor.cautious.flatMap (·.events)) = "" := by
      apply logEvents_eq_empty
      intro event hevent
      rcases List.mem_append.1 hevent with hopening | hreading
      · obtain ⟨-, rfl⟩ := Cursor.ofSource_eq_ok_iff.1 hopened
        obtain rfl := List.mem_singleton.1 hopening
        rfl
      · rw [hevents event hreading]
        rfl
    refine ⟨(gathered_of_ok hopened).2 hgathers, ?_⟩
    simp only [list, hopened, firstError?_eq (Cursor.cautious_of_gathers hgathers), hlog]
    exact String.empty_append

end Command

/-- A run of the command lists the tokens of a text up to and including the end
mark, or up to the first error, each on a line of its own.  Its exit status is
zero where it comes to the end mark, and only there, and one where it stops at
an error with a whole diagnostic.  Where `tokenize` stops at a fault other than
a stray character, the command has listed the tokens that were gathered in front
of it, and by default it shows the diagnostic and nothing else. -/
theorem listFile_of_gathered (threshold : Command.Threshold) (file source : String) :
    let result := Command.listFile threshold file (.ok source)
    let report := Command.listFile (Command.Threshold.choose none false) file (.ok source)
    (∃ tokens stop, Gathered id source tokens stop) ∧
      (∀ tokens stop, Gathered id source tokens stop →
        result.stdout = String.join (tokens.map fun token => token.render ++ "\n") ∧
          result.stdout.toList.count '\n' = tokens.length ∧
          (result.exit = 0 ↔ stop = none) ∧
          ∀ error, stop = some error →
            (Diagnostic.ofError error source file).complete = true → result.exit = 1) ∧
      ∀ error, tokenize source = .error error →
        (∀ c, error.fault ≠ .unrecognizedCharacter c) →
        (∃ tokens stop, Gathered Outcome.strict source tokens stop) ∧
          ∀ tokens stop, Gathered Outcome.strict source tokens stop →
            stop = some error ∧
              result.stdout = String.join (tokens.map fun token => token.render ++ "\n") ∧
              ((Diagnostic.ofError error source file).complete = true →
                report.stderr = (Diagnostic.ofError error source file).text) := by
  intro result report
  refine ⟨exists_gathered (fun _ _ h => h) source, ?_, ?_⟩
  · intro tokens stop h
    obtain ⟨hstdout, hexit, hfailed⟩ := Command.list_of_gathered threshold file h
    refine ⟨hstdout, ?_, hexit, hfailed⟩
    show (Command.list threshold file source).stdout.toList.count '\n' = tokens.length
    rw [hstdout]
    exact Command.count_newline_lines tokens
  · intro error herror hfault
    refine ⟨exists_gathered (fun _ _ h => (Outcome.strict_eq_ok_iff.1 h).1) source, ?_⟩
    intro tokens stop h
    have hstop : stop = some error := by
      have htokenize := tokenize_of_gathered h
      rw [herror] at htokenize
      cases stop with
      | none => exact absurd htokenize (by simp)
      | some found => rw [Except.error.inj htokenize]
    rw [hstop] at h
    obtain ⟨hgathered, hstderr⟩ := Command.list_of_gathered_strict file h hfault
    exact ⟨hstop, (Command.list_of_gathered threshold file hgathered).1, fun _ => hstderr⟩

/-- A string over two lines, and a number with two points. -/
def splitStringSource : String := "'a\nb' 1.2.3"

/-- The string is listed on one line, and the number is the error of the run. -/
theorem listFile_splitStringSource :
    let error : Error := ⟨.malformedNumber "1.2.3", ⟨2, 4⟩⟩
    tokenize splitStringSource = .error error ∧
      Gathered Outcome.strict splitStringSource
        [.plain .stringLiteral ['a', '\n', 'b'] ⟨1, 1⟩] (some error) ∧
      (Command.listFile none "a.cs" (.ok splitStringSource)).stdout.toList.count '\n' = 1 ∧
      (Command.listFile none "a.cs" (.ok splitStringSource)).exit = 1 ∧
      (Command.listFile (Command.Threshold.choose none false) "a.cs"
          (.ok splitStringSource)).stderr =
        (Diagnostic.ofError error splitStringSource "a.cs").text := by
  intro error
  have herror : tokenize splitStringSource = .error error := by decide +kernel
  have hgathered : Gathered Outcome.strict splitStringSource
      [.plain .stringLiteral ['a', '\n', 'b'] ⟨1, 1⟩] (some error) :=
    .more (by decide +kernel) (by decide) (.failed (by decide +kernel))
  have hlisted : Gathered id splitStringSource
      [.plain .stringLiteral ['a', '\n', 'b'] ⟨1, 1⟩] (some error) :=
    .more (by decide +kernel) (by decide) (.failed (by decide +kernel))
  obtain ⟨-, hrun, hreport⟩ := listFile_of_gathered none "a.cs" splitStringSource
  obtain ⟨-, hcount, -, hexit⟩ := hrun _ _ hlisted
  obtain ⟨-, -, hstderr⟩ := (hreport error herror fun _ => Fault.noConfusion).2 _ _ hgathered
  have hwhole : (Diagnostic.ofError error splitStringSource "a.cs").complete = true := by
    decide +kernel
  exact ⟨herror, hgathered, hcount, hexit error rfl hwhole, hstderr hwhole⟩

end SharpLexer
