import SharpLexer.Proofs.Tiling
import SharpLexer.Proofs.Tokenize

/-!
# Every run comes to its end

A reading either takes characters off the text ahead or gives the end mark,
and after the end mark nothing changes any more.  So a text has no more
outcomes than characters.

* `Cursor.exists_passed` is the progress of one reading, and
  `Cursor.length_le_of_endsAfter` what a run makes of it.
* `Cursor.next_of_isEnd` is the reading that meets the end, and
  `Cursor.later_of_isEnd` says that every reading behind it is the same.
* `Cursor.isEnd_of_isOpen` says that nothing but the end mark comes behind a
  string or a comment that lacks its end.
* `Cursor.outcomes_readings` and `Cursor.length_of_tokens` count what the ways
  to read a whole text give.
* `run_of_ofSource` puts these together for every run over a text.
-/

namespace SharpLexer

open Trivia (ClosedGap gapText)

/-- The end mark lacks nothing. -/
theorem Outcome.isOpen_eq_false_of_isEnd {outcome : Outcome} (h : outcome.isEnd = true) :
    outcome.isOpen = false := by
  cases outcome with
  | ok token => rfl
  | error error => exact absurd h (by simp [isEnd])

namespace Cursor

variable {c : Cursor}

/-! ## Progress -/

/-- A reading that does not meet the end passes over a character or more. -/
theorem exists_passed (h : c.next.value.isEnd = false) :
    ∃ passed, passed ≠ [] ∧ c.unread = passed ++ c.next.cursor.unread := by
  obtain ⟨gap, item, tail, -, hshape, hstops, hunread, hnext⟩ := exists_item_of_not_isEnd h
  refine ⟨gapText gap ++ item.text, ?_, ?_⟩
  · simp [Item.text_ne_nil_of_wellFormed hshape]
  · rw [hnext, unread_after hstops, hunread, List.append_assoc]

/-- There are no more outcomes in front of the end mark than characters. -/
theorem length_le_of_endsAfter {n : Nat} (h : c.EndsAfter n) : n ≤ c.unread.length := by
  induction n generalizing c with
  | zero => exact Nat.zero_le _
  | succ n ih =>
    obtain ⟨hfirst, hrest⟩ := endsAfter_of_succ h
    obtain ⟨passed, hpassed, hunread⟩ := exists_passed hfirst
    have hpos := List.length_pos_iff.2 hpassed
    have hle := ih hrest
    rw [hunread, List.length_append]
    omega

/-! ## Behind the end -/

/-- The reading that meets the end leaves the cursor behind the text. -/
theorem next_of_isEnd (h : c.next.value.isEnd = true) :
    c.next.value = .ok (.eof c.endPlace) ∧ c.next.cursor = ended c.endPlace := by
  obtain ⟨gap, hgap, hunread, -⟩ := exists_lastGap_of_isEnd h
  exact next_of_lastGap hgap hunread

theorem later_ended (p : Position) (n : Nat) : (ended p).later n = ended p := by
  induction n with
  | zero => rfl
  | succ n ih => exact ih

/-- Once the end mark was read, it is read again and again, and the cursor
does not change any more. -/
theorem later_of_isEnd {n : Nat} (h : (c.outcomeAt n).isEnd = true) (m : Nat) :
    c.outcomeAt (n + m) = c.outcomeAt n ∧ c.later (n + 1 + m) = c.later (n + 1) := by
  obtain ⟨hvalue, hcursor⟩ := next_of_isEnd h
  have hlater : ∀ k, c.later (n + 1 + k) = ended (c.later n).endPlace := by
    intro k
    rw [later_add, later_succ', hcursor, later_ended]
  refine ⟨?_, (hlater m).trans (hlater 0).symm⟩
  cases m with
  | zero => rfl
  | succ m =>
    have hmark : c.outcomeAt (n + (m + 1)) = .ok (.eof (c.later n).endPlace) := by
      rw [← Nat.add_assoc, Nat.add_right_comm, outcomeAt, hlater]
      rfl
    exact hmark.trans hvalue.symm

/-- Behind what lacks its end, the end mark is next. -/
theorem isEnd_of_isOpen (h : c.next.value.isOpen = true) :
    c.next.cursor.next.value.isEnd = true := by
  rcases c.next_cases with ⟨gap, -, -, hnext⟩ | ⟨gap, item, tail, -, -, -, -, hnext⟩
  · rw [hnext] at h
    exact absurd h (by simp [finish, Outcome.isOpen])
  · rw [hnext, Item.isOpen_outcome] at h
    rw [hnext]
    simp [after, h]

theorem isEnd_of_isOpen_of_lt {m n : Nat} (h : (c.outcomeAt n).isOpen = true) (hlt : n < m) :
    (c.outcomeAt m).isEnd = true := by
  have hnext : (c.outcomeAt (n + 1)).isEnd = true := by
    rw [outcomeAt, later_succ']
    exact isEnd_of_isOpen h
  obtain ⟨k, rfl⟩ := Nat.exists_eq_add_of_le (Nat.succ_le_of_lt hlt)
  rw [(later_of_isEnd hnext k).1]
  exact hnext

/-- At most one outcome of a run lacks its end. -/
theorem eq_of_isOpen {m n : Nat} (hm : (c.outcomeAt m).isOpen = true)
    (hn : (c.outcomeAt n).isOpen = true) : m = n := by
  rcases Nat.lt_trichotomy m n with hlt | heq | hlt
  · have hend := Outcome.isOpen_eq_false_of_isEnd (isEnd_of_isOpen_of_lt hm hlt)
    rw [hn] at hend
    exact absurd hend (by decide)
  · exact heq
  · have hend := Outcome.isOpen_eq_false_of_isEnd (isEnd_of_isOpen_of_lt hn hlt)
    rw [hm] at hend
    exact absurd hend (by decide)

/-! ## Whole texts -/

/-- Reading on outcome by outcome, nothing comes behind the last. -/
theorem next?_of_isEnd (h : c.next.value.isEnd = true) : c.next?.value = none := by
  have hlast : c.next.isLast = true := (isLast_eq_isEnd c.next).trans h
  simp [next?, hlast]

/-- Reading on over errors gives the outcomes in front of the end mark. -/
theorem outcomes_readings {n : Nat} (h : c.EndsAfter n) :
    outcomes c.readings = c.outcomesUpTo n := by
  induction n generalizing c with
  | zero =>
    have hlast : c.next.isLast = true := (isLast_eq_isEnd c.next).trans h.2
    rw [readings_eq, if_pos hlast]
    simp [outcomes, hlast, outcomesUpTo]
  | succ n ih =>
    obtain ⟨hfirst, hrest⟩ := endsAfter_of_succ h
    have hnot : c.next.isLast = false := (isLast_eq_isEnd c.next).trans hfirst
    have hbehind := ih hrest
    rw [outcomes] at hbehind
    rw [readings_eq, hnot, outcomesUpTo_succ, ← hbehind]
    simp [outcomes, hnot]

/-- The tokens of a text are the outcomes and the end mark. -/
theorem length_of_tokens {n : Nat} (h : c.EndsAfter n) {list : List Token}
    (htokens : c.tokens = .ok list) : list.length = n + 1 := by
  induction n generalizing c list with
  | zero =>
    obtain ⟨token, hvalue, -, ⟨-, rfl⟩ | ⟨hend, -⟩⟩ := tokens_eq_ok_iff.1 htokens
    · rfl
    · have hlast : (Outcome.isEnd (.ok token)) = true := hvalue ▸ h.2
      exact absurd (hend.symm.trans hlast) (by decide)
  | succ n ih =>
    obtain ⟨hfirst, hbehind⟩ := endsAfter_of_succ h
    obtain ⟨token, hvalue, -, ⟨hend, -⟩ | ⟨-, rest, hrest, rfl⟩⟩ := tokens_eq_ok_iff.1 htokens
    · have hnot : (Outcome.isEnd (.ok token)) = false := hvalue ▸ hfirst
      exact absurd (hend.symm.trans hnot) (by decide)
    · rw [List.length_cons, ih hbehind hrest]

end Cursor

/-- A run over a text.  Every outcome but the end mark takes characters off
the text ahead, so there are no more of them than characters, and one token
more.  After the end mark neither the outcome nor the cursor changes.  What
lacks its end comes once at most, right in front of the end mark. -/
theorem run_of_ofSource {source : String} {opened : Reading Unit}
    (h : Cursor.ofSource source = .ok opened) :
    (∀ n, (opened.cursor.outcomeAt n).isEnd = false →
        ∃ front passed rest, source.toList = front ++ (passed ++ rest) ∧ passed ≠ [] ∧
          (opened.cursor.later n).unread = passed ++ rest ∧
          (opened.cursor.later (n + 1)).unread = rest) ∧
      (∃ n ≤ source.toList.length, opened.cursor.EndsAfter n ∧
        opened.cursor.drain.value = opened.cursor.outcomesUpTo n ∧
        opened.cursor.drain.value.length = n) ∧
      (∀ tokens, tokenize source = .ok tokens → tokens.length ≤ source.toList.length + 1) ∧
      (∀ n, (opened.cursor.outcomeAt n).isEnd = true → ∀ m,
        opened.cursor.outcomeAt (n + m) = opened.cursor.outcomeAt n ∧
          opened.cursor.later (n + 1 + m) = opened.cursor.later (n + 1) ∧
          (opened.cursor.later (n + m)).next?.value = none ∧
          (opened.cursor.later (n + m)).next?.cursor = opened.cursor.later (n + 1)) ∧
      (∀ n, (opened.cursor.outcomeAt n).isOpen = true →
        (opened.cursor.outcomeAt (n + 1)).isEnd = true ∧
          ∀ m, (opened.cursor.outcomeAt m).isOpen = true → m = n) := by
  obtain ⟨-, rfl⟩ := Cursor.ofSource_eq_ok_iff.1 h
  obtain ⟨n, hends, -⟩ := Cursor.exists_tiling (Cursor.start source.toList)
  have hbound : n ≤ source.toList.length := Cursor.length_le_of_endsAfter hends
  refine ⟨?_, ⟨n, hbound, hends, ?_, ?_⟩, ?_, ?_, ?_⟩
  · intro k hk
    obtain ⟨front, htext, -⟩ := Cursor.exists_front_of_standsIn
      (Cursor.standsIn_later (Cursor.standsIn_start source.toList) k)
    obtain ⟨passed, hpassed, hunread⟩ := Cursor.exists_passed hk
    rw [← Cursor.later_succ'] at hunread
    exact ⟨front, passed, _, by rw [← hunread]; exact htext, hpassed, hunread, rfl⟩
  · exact Cursor.outcomes_readings hends
  · show (Cursor.outcomes (Cursor.start source.toList).readings).length = n
    rw [Cursor.outcomes_readings hends, Cursor.length_outcomesUpTo]
  · intro tokens htokens
    rw [Cursor.length_of_tokens hends (tokenize_eq_ok_iff.1 htokens).2]
    omega
  · intro k hk m
    obtain ⟨hvalue, hcursor⟩ := Cursor.later_of_isEnd hk m
    rw [← hvalue] at hk
    refine ⟨hvalue, hcursor, Cursor.next?_of_isEnd hk, ?_⟩
    rw [← hcursor, Nat.add_right_comm, Cursor.later_succ']
    rfl
  · intro k hk
    exact ⟨Cursor.isEnd_of_isOpen_of_lt hk (Nat.lt_succ_self k),
      fun m hm => Cursor.eq_of_isOpen hm hk⟩

/-- A number, a comment, and a string without an end. -/
def unclosedSource : String := "1/**/'é"

/-- The run over `unclosedSource` has two outcomes in front of the end mark. -/
theorem run_of_unclosedSource :
    Cursor.ofSource unclosedSource = .ok ⟨(), [.opened 7], Cursor.start unclosedSource.toList⟩ ∧
      ((Cursor.start unclosedSource.toList).outcomeAt 1).isOpen = true ∧
      ((Cursor.start unclosedSource.toList).outcomeAt 2).isEnd = true ∧
      ∀ m, (Cursor.start unclosedSource.toList).outcomeAt (2 + m) =
          (Cursor.start unclosedSource.toList).outcomeAt 2 ∧
        (Cursor.start unclosedSource.toList).later (2 + 1 + m) =
          (Cursor.start unclosedSource.toList).later (2 + 1) := by
  have hopened : Cursor.ofSource unclosedSource =
      .ok ⟨(), [.opened 7], Cursor.start unclosedSource.toList⟩ :=
    Cursor.ofSource_eq_ok_iff.2 ⟨by decide, rfl⟩
  have hopen : ((Cursor.start unclosedSource.toList).outcomeAt 1).isOpen = true := by
    decide +kernel
  obtain ⟨-, -, -, habsorbs, honce⟩ := run_of_ofSource hopened
  have hend := (honce 1 hopen).1
  exact ⟨hopened, hopen, hend, fun m => ⟨(habsorbs 2 hend m).1, (habsorbs 2 hend m).2.1⟩⟩

end SharpLexer
