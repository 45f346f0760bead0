import SharpLexer.Proofs.Progress

/-!
# The ways to read a text agree

A text can be read outcome by outcome, on over errors to its end, up to the
first error, or as a list of tokens that refuses stray characters as well.
All of these come to the same list of outcomes, and differ in what they take
for a failure only.

* `Cursor.Yields` is the list of the outcomes that `Cursor.next?` gives before
  it gives nothing.  `Cursor.yields_drain` says that `Cursor.drain` is that
  list.
* `mapM_of_find?_eq_none` and `mapM_of_find?_eq_some` say what becomes of a
  list of outcomes where the first failure counts.
* `Cursor.tokens_of_yields` and `Cursor.collect_of_yields` say it of the
  tokens and of what is collected.
* `ways_agree` puts these together for a whole text.
-/

namespace SharpLexer

/-! ## Failures -/

namespace Outcome

/-- An outcome that is an error. -/
def isError : Outcome → Bool
  | .ok _ => false
  | .error _ => true

/-- An outcome that the tokens of a text cannot have: an error, or a stray
character. -/
def isRefused : Outcome → Bool
  | .ok token => token.kind = .stray
  | .error _ => true

/-- Where nothing is an error, there are tokens only. -/
theorem exists_token_of_not_isError {outcome : Outcome} (h : outcome.isError = false) :
    ∃ token, outcome = .ok token ∧ id outcome = .ok token := by
  cases outcome with
  | ok token => exact ⟨token, rfl, rfl⟩
  | error error => exact absurd h (by simp [isError])

theorem exists_error_of_isError {outcome : Outcome} (h : outcome.isError = true) :
    ∃ error, outcome = .error error := by
  cases outcome with
  | ok token => exact absurd h (by simp [isError])
  | error error => exact ⟨error, rfl⟩

theorem exists_token_of_not_isRefused {outcome : Outcome} (h : outcome.isRefused = false) :
    ∃ token, outcome = .ok token ∧ outcome.strict = .ok token := by
  cases outcome with
  | ok token =>
    have hstray : token.kind ≠ .stray := by simpa [isRefused] using h
    exact ⟨token, rfl, Outcome.strict_eq_ok_iff.2 ⟨rfl, hstray⟩⟩
  | error error => exact absurd h (by simp [isRefused])

end Outcome

section FirstFailure

variable {fails : Outcome → Bool} {f : Outcome → Except Error Token} {list : List Outcome}

/-- Without a failure a list of outcomes is a list of tokens. -/
theorem mapM_of_find?_eq_none
    (hf : ∀ outcome : Outcome, fails outcome = false →
      ∃ token, outcome = .ok token ∧ f outcome = .ok token)
    (h : list.find? fails = none) :
    ∃ tokens, list = tokens.map .ok ∧ list.mapM f = .ok tokens := by
  induction list with
  | nil => exact ⟨[], rfl, rfl⟩
  | cons outcome list ih =>
    have hall := List.find?_eq_none.1 h
    obtain ⟨token, rfl, htoken⟩ := hf outcome (by simpa using hall outcome (by simp))
    obtain ⟨tokens, rfl, htokens⟩ :=
      ih (List.find?_eq_none.2 fun other hother => hall other (List.mem_cons_of_mem _ hother))
    refine ⟨token :: tokens, rfl, ?_⟩
    simp [List.mapM_cons, htoken, htokens, bind, Except.bind, pure, Except.pure]

/-- The first failure of a list of outcomes is that of the list. -/
theorem mapM_of_find?_eq_some
    (hf : ∀ outcome : Outcome, fails outcome = false →
      ∃ token, outcome = .ok token ∧ f outcome = .ok token)
    {outcome : Outcome} (h : list.find? fails = some outcome) {error : Error}
    (herror : f outcome = .error error) : list.mapM f = .error error := by
  induction list with
  | nil => simp at h
  | cons first list ih =>
    cases hfirst : fails first with
    | true =>
      obtain rfl : first = outcome := by simpa [hfirst] using h
      simp [List.mapM_cons, herror, bind, Except.bind]
    | false =>
      obtain ⟨token, rfl, htoken⟩ := hf first hfirst
      have hrest := ih (by simpa [hfirst] using h)
      simp [List.mapM_cons, htoken, hrest, bind, Except.bind]

theorem find?_isError_map_ok (tokens : List Token) :
    (tokens.map Except.ok).find? Outcome.isError = none := by
  simp [Outcome.isError]

end FirstFailure

namespace Cursor

variable {c last : Cursor} {list : List Outcome}

/-! ## Outcome by outcome -/

/-- The outcomes that `next?` gives one by one, before it gives nothing and
leaves the cursor at `last`. -/
inductive Yields : Cursor → List Outcome → Cursor → Prop where
  | done {c : Cursor} (h : c.next?.value = none) : Yields c [] c.next?.cursor
  | more {c last : Cursor} {outcome : Outcome} {list : List Outcome}
      (h : c.next?.value = some outcome) (hrest : Yields c.next?.cursor list last) :
      Yields c (outcome :: list) last

theorem next?_value (c : Cursor) :
    c.next?.value = if c.next.value.isEnd then none else some c.next.value := by
  rw [← isLast_eq_isEnd]
  rfl

theorem isEnd_of_next?_eq_none (h : c.next?.value = none) : c.next.value.isEnd = true := by
  rw [next?_value] at h
  simpa using h

theorem next_of_next?_eq_some {outcome : Outcome} (h : c.next?.value = some outcome) :
    c.next.value = outcome ∧ outcome.isEnd = false := by
  rw [next?_value] at h
  split at h
  · exact absurd h (by simp)
  · next hend =>
    obtain rfl := Option.some.inj h
    exact ⟨rfl, by simpa using hend⟩

theorem drain_of_isEnd (h : c.next.value.isEnd = true) :
    c.drain.value = [] ∧ c.drain.cursor = c.next.cursor := by
  have hlast : c.next.isLast = true := (isLast_eq_isEnd c.next).trans h
  simp [drain, summarize, outcomes, readings_eq c, hlast]

theorem drain_of_not_isEnd (h : c.next.value.isEnd = false) :
    c.drain.value = c.next.value :: c.next.cursor.drain.value ∧
      c.drain.cursor = c.next.cursor.drain.cursor := by
  have hlast : c.next.isLast = false := (isLast_eq_isEnd c.next).trans h
  have hne : c.next.cursor.readings ≠ [] := by
    rw [readings_eq]
    split <;> simp
  obtain ⟨final, hfinal⟩ := Option.ne_none_iff_exists'.1 (mt List.getLast?_eq_none_iff.1 hne)
  simp [drain, summarize, outcomes, readings_eq c, hlast, List.getLast?_cons, hfinal]

/-- Reading on over errors gives what comes outcome by outcome. -/
theorem yields_drain (c : Cursor) : c.Yields c.drain.value c.drain.cursor := by
  induction hlength : c.unread.length using Nat.strongRecOn generalizing c with
  | ind length ih =>
    subst hlength
    cases hend : c.next.value.isEnd with
    | true =>
      obtain ⟨hvalue, hcursor⟩ := drain_of_isEnd hend
      rw [hvalue, hcursor]
      exact .done (by rw [next?_value, if_pos hend])
    | false =>
      obtain ⟨hvalue, hcursor⟩ := drain_of_not_isEnd hend
      have hshorter := unread_next_lt ((isLast_eq_isEnd c.next).trans hend)
      rw [hvalue, hcursor]
      exact .more (by simp [next?_value, hend]) (ih _ hshorter _ rfl)

/-- Every outcome that comes is that of a reading, and none is an end mark. -/
theorem exists_next_of_yields (h : c.Yields list last) :
    ∀ outcome ∈ list, outcome.isEnd = false ∧ ∃ d : Cursor, d.next.value = outcome := by
  induction h with
  | done _ => simp
  | more h _ ih =>
    obtain ⟨hvalue, hend⟩ := next_of_next?_eq_some h
    exact List.forall_mem_cons.2 ⟨⟨hend, _, hvalue⟩, ih⟩

/-! ## All at once -/

/-- The tokens are those of the outcomes, and the end mark behind them. -/
theorem tokens_of_yields (h : c.Yields list last) :
    ∃ mark, last.next.value = .ok mark ∧ mark.kind = .eof ∧
      c.tokens = (list.mapM Outcome.strict).map (· ++ [mark]) := by
  induction h with
  | @done c h =>
    have hend := isEnd_of_next?_eq_none h
    obtain ⟨hvalue, hcursor⟩ := next_of_isEnd hend
    refine ⟨.eof c.endPlace, ?_, rfl, ?_⟩
    · show c.next.cursor.next.value = _
      rw [hcursor]
      rfl
    · rw [tokens_eq, hvalue]
      rfl
  | @more c last outcome list h _ ih =>
    obtain ⟨hvalue, hend⟩ := next_of_next?_eq_some h
    obtain ⟨mark, hmark, heof, htokens⟩ := ih
    refine ⟨mark, hmark, heof, ?_⟩
    have hrest : c.next.cursor.tokens = (list.mapM Outcome.strict).map (· ++ [mark]) := htokens
    rw [tokens_eq, hvalue, hend, hrest, List.mapM_cons]
    cases outcome.strict with
    | error error => rfl
    | ok token => cases list.mapM Outcome.strict <;> rfl

/-- Where no outcome is refused, the tokens are those that came, and one end
mark. -/
theorem tokens_of_no_refused (h : c.Yields list last)
    (hfine : list.find? Outcome.isRefused = none) :
    ∃ tokens mark, list = tokens.map .ok ∧ last.next.value = .ok mark ∧ mark.kind = .eof ∧
      (∀ token ∈ tokens, token.kind ≠ .eof) ∧ c.tokens = .ok (tokens ++ [mark]) := by
  obtain ⟨mark, hmark, heof, htokens⟩ := tokens_of_yields h
  obtain ⟨tokens, rfl, hstrict⟩ :=
    mapM_of_find?_eq_none (fun _ => Outcome.exists_token_of_not_isRefused) hfine
  rw [hstrict] at htokens
  refine ⟨tokens, mark, rfl, hmark, heof, ?_, htokens⟩
  intro token hmem
  obtain ⟨hend, -⟩ := exists_next_of_yields h _ (List.mem_map_of_mem hmem)
  simpa [Token.isEof] using hend

/-- The first outcome that is refused is the error of the tokens. -/
theorem tokens_of_first_refused (h : c.Yields list last) {outcome : Outcome}
    (hfirst : list.find? Outcome.isRefused = some outcome) {error : Error}
    (hstrict : outcome.strict = .error error) : c.tokens = .error error := by
  obtain ⟨mark, -, -, htokens⟩ := tokens_of_yields h
  rw [htokens, mapM_of_find?_eq_some (fun _ => Outcome.exists_token_of_not_isRefused) hfirst
    hstrict]
  rfl

/-- Cautious readings stop at the end mark and at an error. -/
theorem cautious_of_stop (h : c.next.isLast = true ∨ c.next.failed = true) :
    c.cautious = [c.next] := by
  rcases h with hlast | hfailed
  · rw [cautious, readings_eq c, if_pos hlast]
    cases hfailed : c.next.failed <;> simp [upTo, hfailed]
  · rw [cautious, readings_eq c]
    split <;> simp [upTo, hfailed]

theorem cautious_of_goes_on (hlast : c.next.isLast = false) (hfine : c.next.failed = false) :
    c.cautious = c.next :: c.next.cursor.cautious := by
  simp [cautious, readings_eq c, hlast, upTo, hfine]

/-- What is collected are the tokens up to the first error. -/
theorem collect_of_yields (h : c.Yields list last) : c.collect.value = list.mapM id := by
  induction h with
  | @done c h =>
    have hlast : c.next.isLast = true :=
      (isLast_eq_isEnd c.next).trans (isEnd_of_next?_eq_none h)
    show (outcomes c.cautious).mapM id = _
    simp [cautious_of_stop (Or.inl hlast), outcomes, hlast]
  | @more c last outcome list h _ ih =>
    obtain ⟨hvalue, hend⟩ := next_of_next?_eq_some h
    have hlast : c.next.isLast = false := by rw [isLast_eq_isEnd, hvalue, hend]
    have hrest : (outcomes c.next.cursor.cautious).mapM id = list.mapM id := ih
    show (outcomes c.cautious).mapM id = _
    cases outcome with
    | error error =>
      -- the cautious readings end here, and the rest of `list` does not count
      have hfailed : c.next.failed = true := by simp [Reading.failed, hvalue]
      simp [cautious_of_stop (Or.inr hfailed), outcomes, hlast, hvalue, List.mapM_cons, bind,
        Except.bind]
    | ok token =>
      have hfine : c.next.failed = false := by simp [Reading.failed, hvalue]
      have houtcomes : outcomes c.cautious = .ok token :: outcomes c.next.cursor.cautious := by
        simp [outcomes, cautious_of_goes_on hlast hfine, hlast, hvalue]
      rw [houtcomes, List.mapM_cons, List.mapM_cons, hrest]

/-- There is no error, or a first one. -/
theorem collect_cases (h : c.Yields list last) :
    (∃ tokens, list = tokens.map .ok ∧ c.collect.value = .ok tokens) ∨
      ∃ error, list.find? Outcome.isError = some (.error error) ∧
        c.collect.value = .error error := by
  rw [collect_of_yields h]
  cases hfirst : list.find? Outcome.isError with
  | none =>
    exact Or.inl (mapM_of_find?_eq_none (fun _ => Outcome.exists_token_of_not_isError) hfirst)
  | some outcome =>
    obtain ⟨error, rfl⟩ := Outcome.exists_error_of_isError (List.find?_some hfirst)
    exact Or.inr ⟨error, rfl,
      mapM_of_find?_eq_some (fun _ => Outcome.exists_token_of_not_isError) hfirst rfl⟩

theorem collect_eq_ok_iff (h : c.Yields list last) {tokens : List Token} :
    c.collect.value = .ok tokens ↔ list = tokens.map .ok := by
  rcases collect_cases h with ⟨found, rfl, hvalue⟩ | ⟨error, hfirst, hvalue⟩
  · rw [hvalue, Except.ok.injEq]
    exact (List.map_inj_right fun _ _ => Except.ok.inj).symm
  · rw [hvalue]
    constructor
    · intro hok
      exact absurd hok (by simp)
    · rintro rfl
      rw [find?_isError_map_ok] at hfirst
      exact absurd hfirst (by simp)

theorem collect_eq_error_iff (h : c.Yields list last) {error : Error} :
    c.collect.value = .error error ↔ list.find? Outcome.isError = some (.error error) := by
  rcases collect_cases h with ⟨tokens, rfl, hvalue⟩ | ⟨first, hfirst, hvalue⟩
  · rw [hvalue, find?_isError_map_ok]
    simp
  · rw [hvalue, hfirst]
    simp

end Cursor

/-! ## Whole texts -/

/-- No error but that of an empty text names it. -/
theorem tokenize_eq_empty_iff {source : String} :
    tokenize source = .error ⟨.emptyInput, Position.nowhere⟩ ↔
      source.toList.all Text.isBlank = true := by
  constructor
  · intro h
    rcases tokenize_eq_error_cases h with ⟨hblank, -⟩ | ⟨n, hstrict⟩
    · exact hblank
    · exact absurd rfl (Cursor.fault_ne_emptyInput_of_strict hstrict)
  · intro hblank
    rw [tokenize_eq, if_pos hblank]

/-- A text is refused as empty where it holds nothing but blanks, and only
there.  Otherwise its outcomes come one by one up to its end.  Its tokens are
those outcomes and the end mark, unless one of them is refused: then the first
such is the result.  What is collected are the outcomes as well, unless one of
them is an error: then the first error is the result. -/
theorem ways_agree (source : String) :
    (tokenize source = .error ⟨.emptyInput, Position.nowhere⟩ ↔
        ∃ error, Cursor.ofSource source = .error error) ∧
      ((∃ error, Cursor.ofSource source = .error error) ↔
        source.toList.all Text.isBlank = true) ∧
      ∀ opened, Cursor.ofSource source = .ok opened →
        opened.cursor.Yields opened.cursor.drain.value opened.cursor.drain.cursor ∧
        ∀ list last, opened.cursor.Yields list last →
          (list.find? Outcome.isRefused = none →
            ∃ tokens mark, list = tokens.map .ok ∧ last.next.value = .ok mark ∧
              mark.kind = .eof ∧ (∀ token ∈ tokens, token.kind ≠ .eof) ∧
              tokenize source = .ok (tokens ++ [mark])) ∧
          (∀ error, list.find? Outcome.isRefused = some (.error error) →
            tokenize source = .error error) ∧
          (∀ token, list.find? Outcome.isRefused = some (.ok token) →
            ∃ c, token.kind = .stray ∧ token.lexeme.toList = [c] ∧
              tokenize source = .error ⟨.unrecognizedCharacter c, token.position⟩) ∧
          (∀ tokens, opened.cursor.collect.value = .ok tokens ↔ list = tokens.map .ok) ∧
          (∀ error, opened.cursor.collect.value = .error error ↔
            list.find? Outcome.isError = some (.error error)) := by
  refine ⟨?_, Cursor.ofSource_eq_error_iff, ?_⟩
  · rw [Cursor.ofSource_eq_error_iff]
    exact tokenize_eq_empty_iff
  · intro opened hopened
    obtain ⟨hblank, rfl⟩ := Cursor.ofSource_eq_ok_iff.1 hopened
    have htokenize : tokenize source = (Cursor.start source.toList).tokens := by
      rw [tokenize_eq, hblank]
      rfl
    rw [htokenize]
    refine ⟨Cursor.yields_drain _, ?_⟩
    intro list last h
    refine ⟨Cursor.tokens_of_no_refused h, ?_, ?_, fun _ => Cursor.collect_eq_ok_iff h,
      fun _ => Cursor.collect_eq_error_iff h⟩
    · intro error hfirst
      exact Cursor.tokens_of_first_refused h hfirst rfl
    · intro token hfirst
      have hstray : token.kind = .stray := by
        simpa [Outcome.isRefused] using List.find?_some hfirst
      obtain ⟨-, d, hd⟩ := Cursor.exists_next_of_yields h _ (List.mem_of_find?_eq_some hfirst)
      obtain ⟨c, -, hlexeme⟩ := Cursor.exists_stray_of_kind hd hstray
      exact ⟨c, hstray, hlexeme, Cursor.tokens_of_first_refused h hfirst
        (Outcome.strict_of_stray hstray hlexeme)⟩

/-- A stray character in front of a number that has no value. -/
def twoFaultsSource : String := "a é 1.2.3"

/-- The tokens of `twoFaultsSource` fail at the stray character, and what is
collected at the number. -/
theorem ways_agree_twoFaultsSource :
    Cursor.ofSource twoFaultsSource =
        .ok ⟨(), [.opened 9], Cursor.start twoFaultsSource.toList⟩ ∧
      tokenize twoFaultsSource = .error ⟨.unrecognizedCharacter 'é', ⟨1, 3⟩⟩ ∧
      (Cursor.start twoFaultsSource.toList).collect.value =
        .error ⟨.malformedNumber "1.2.3", ⟨1, 5⟩⟩ := by
  have hopened : Cursor.ofSource twoFaultsSource =
      .ok ⟨(), [.opened 9], Cursor.start twoFaultsSource.toList⟩ :=
    Cursor.ofSource_eq_ok_iff.2 ⟨by decide, rfl⟩
  obtain ⟨-, -, hruns⟩ := ways_agree twoFaultsSource
  obtain ⟨hyields, hways⟩ := hruns _ hopened
  obtain ⟨-, -, hstray, -, herror⟩ := hways _ _ hyields
  have hrefused : (Cursor.start twoFaultsSource.toList).drain.value.find? Outcome.isRefused =
      some (.ok (.plain .stray ['é'] ⟨1, 3⟩)) := by
    decide +kernel
  have hfailed : (Cursor.start twoFaultsSource.toList).drain.value.find? Outcome.isError =
      some (.error ⟨.malformedNumber "1.2.3", ⟨1, 5⟩⟩) := by
    decide +kernel
  obtain ⟨c, -, hlexeme, htokens⟩ := hstray _ hrefused
  obtain rfl : 'é' = c := by simpa using hlexeme
  exact ⟨hopened, htokens, (herror _).2 hfailed⟩

end SharpLexer
