import SharpLexer.Proofs.Caret

/-!
# How wide a caret can be

A diagnostic lays out the line of its caret in one piece, which can be at most
`Diagnostic.widest` columns wide.  One that needs more breaks off in front of
that line.

* `Diagnostic.complete_iff` says of any error when its diagnostic is whole.
* `Diagnostic.exists_line_of_tokenize` bounds the column of an error by the line
  that it is on, and `complete_of_tokenize` is what follows for the errors of a
  text: only a line that is too long can break one off.
* `bulkySource` has an error in a column as great as one likes, so
  `breaks_off_bulkySource` is the least of them that breaks off.
-/

namespace SharpLexer

namespace Diagnostic

/-- A diagnostic is whole where the caret is no wider than it can be, behind
the indentation of the line, or where there is no line to show. -/
theorem complete_iff {error : Error} {source file : String} :
    (ofError error source file).complete = true ↔
      ∀ line, Text.line? source.toList error.position.line = some line →
        error.position.column ≤ (line.takeWhile isIndent).length + widest := by
  have hwidest : 1 ≤ widest := by decide
  cases hline : Text.line? source.toList error.position.line with
  | none => simp [ofError, hline]
  | some line =>
    have hbound : caretColumn error.position.column line ≤ widest ↔
        error.position.column ≤ (line.takeWhile isIndent).length + widest := by
      rw [caretColumn]
      omega
    simp only [ofError, hline, excerpt, Option.some.injEq, forall_eq']
    rw [← hbound]
    split
    · next hfits => simp [hfits]
    · next hwide => simp [hwide]

/-- A diagnostic that breaks off lacks the line of the caret and nothing else. -/
theorem lines_of_not_complete {error : Error} {source file : String} {line : List Char}
    (hline : Text.line? source.toList error.position.line = some line)
    (h : (ofError error source file).complete = false) :
    (ofError error source file).lines =
      [title error.fault, "-> " ++ file ++ ":" ++ error.position.render,
        margin error.position.line,
        error.position.line.repr ++ " | " ++ String.ofList (shown line)] := by
  simp only [ofError, hline, excerpt] at h ⊢
  split at h
  · exact absurd h (by simp)
  · next hwide => simp [hwide]

/-- The place of an error is in its line, behind the indentation. -/
theorem exists_line_of_tokenize {source : String} {error : Error}
    (h : tokenize source = .error error) (hfault : error.fault ≠ .emptyInput) :
    ∃ line, Text.line? source.toList error.position.line = some line ∧
      (line.takeWhile isIndent).length < error.position.column ∧
      error.position.column ≤ line.length := by
  obtain ⟨front, offender, rest, htext, hplace, hblank⟩ := exists_offender h hfault
  obtain ⟨indent, text, hline, hindent, hhead, hbehind, hget, -⟩ :=
    exists_indent front hblank rest
  have hcolumn : error.position.column = (Position.start.advance front).column + 1 := by
    rw [hplace]
    rfl
  have hinside := (List.getElem?_eq_some_iff.1 hget).1
  refine ⟨indent ++ text, ?_, ?_, ?_⟩
  · rw [htext, hplace]
    exact hline
  · rw [takeWhile_span hindent hhead]
    omega
  · rw [List.length_append]
    omega

end Diagnostic

/-- The diagnostic of an error of a text is whole where the place of the error
is at most `Diagnostic.widest` columns behind the indentation of its line, and
only there.  One that breaks off still names the error and shows the line, and
none does in a text without a line that is too long. -/
theorem complete_of_tokenize {source : String} {error : Error} (file : String)
    (h : tokenize source = .error error) :
    ((Diagnostic.ofError error source file).complete = true ↔
        error.fault = .emptyInput ∨
          ∃ line, Text.line? source.toList error.position.line = some line ∧
            error.position.column ≤
              (line.takeWhile Diagnostic.isIndent).length + Diagnostic.widest) ∧
      ((Diagnostic.ofError error source file).complete = false →
        ∃ line, Text.line? source.toList error.position.line = some line ∧
          (Diagnostic.ofError error source file).lines =
            [Diagnostic.title error.fault, "-> " ++ file ++ ":" ++ error.position.render,
              Diagnostic.margin error.position.line,
              error.position.line.repr ++ " | " ++ String.ofList (Diagnostic.shown line)]) ∧
      ((∀ number line, Text.line? source.toList number = some line →
          line.length ≤ Diagnostic.widest) →
        (Diagnostic.ofError error source file).complete = true) := by
  by_cases hfault : error.fault = .emptyInput
  · -- an empty text has no line zero
    obtain rfl : error = ⟨.emptyInput, Position.nowhere⟩ := by
      rcases tokenize_eq_error_cases h with ⟨-, rfl⟩ | ⟨n, hstrict⟩
      · rfl
      · exact absurd hfault (Cursor.fault_ne_emptyInput_of_strict hstrict)
    have hwhole : (Diagnostic.ofError ⟨.emptyInput, Position.nowhere⟩ source file).complete =
        true := rfl
    simp [hwhole]
  · obtain ⟨line, hline, -, hcolumn⟩ := Diagnostic.exists_line_of_tokenize h hfault
    refine ⟨?_, ?_, ?_⟩
    · rw [Diagnostic.complete_iff]
      simp [hfault, hline]
    · intro hbroken
      exact ⟨line, hline, Diagnostic.lines_of_not_complete hline hbroken⟩
    · intro hshort
      rw [Diagnostic.complete_iff]
      intro other hother
      obtain rfl : line = other := Option.some.inj (hline.symm.trans hother)
      have hlength := hshort _ _ hline
      omega

/-! ## A line that is too long -/

/-- A comment of any length with a stray character behind it, on one line. -/
def bulkySource (length : Nat) : String :=
  String.ofList (Trivia.text (.block (List.replicate length 'x')) ++ ['@'])

section Bulky

variable (length : Nat)

theorem toList_bulkySource :
    (bulkySource length).toList =
      Trivia.gapText [.block (List.replicate length 'x')] ++ ((Item.stray '@').text ++ []) := by
  simp [bulkySource, Item.text]

theorem not_mem_bulkySource {c : Char} (hc : c ∉ ['/', '*', 'x', '@']) :
    c ∉ (bulkySource length).toList := by
  simp only [List.mem_cons, List.not_mem_nil, or_false, not_or] at hc
  simp [bulkySource, Trivia.text, hc]

/-- The stray character is the error of the text. -/
theorem tokenize_bulkySource :
    tokenize (bulkySource length) = .error ⟨.unrecognizedCharacter '@', ⟨1, length + 5⟩⟩ := by
  have hgap : Trivia.ClosedGap [.block (List.replicate length 'x')] := by
    refine Trivia.closedGap_cons.2 ⟨?_, rfl, Trivia.closedGap_nil⟩
    intro hend
    have hstar : '*' ∈ List.replicate length 'x' := hend.subset (by simp)
    exact absurd (List.eq_of_mem_replicate hstar) (by decide)
  have hshape : (Item.stray '@').WellFormed := .stray (by decide +kernel)
  have hplace : Position.start.advance (Trivia.gapText [.block (List.replicate length 'x')]) =
      ⟨1, length + 4⟩ := by
    rw [Position.advance_of_not_mem (by simp [Trivia.text])]
    simp [Trivia.text, Position.start]
  have hstart : (Cursor.start (bulkySource length).toList).next.value =
      .ok (.plain .stray ['@'] ⟨1, length + 5⟩) := by
    have hunread : (Cursor.start (bulkySource length).toList).unread = _ :=
      toList_bulkySource length
    rw [Cursor.next_eq_of_item hgap hshape trivial hunread]
    show (Item.stray '@').outcome (Position.start.advance _).right = _
    rw [hplace]
    rfl
  have hblank : (bulkySource length).toList.all Text.isBlank = false := by
    simp [bulkySource, Trivia.text, Text.isBlank]
  rw [tokenize_eq, hblank, if_neg Bool.false_ne_true, Cursor.tokens_eq, hstart,
    Outcome.strict_of_stray rfl (Token.toList_lexeme_plain _ _ _)]
  rfl

/-- The text is a line without indentation. -/
theorem line?_bulkySource :
    Text.line? (bulkySource length).toList 1 = some (bulkySource length).toList := by
  have hline := Text.line?_of_isWhole (Or.inl rfl) (bulkySource length).toList
  have hnewline : '\n' ∉ (bulkySource length).toList :=
    not_mem_bulkySource length (by decide)
  have hreturn : (bulkySource length).toList.getLast? ≠ some '\r' := by
    intro hlast
    exact not_mem_bulkySource length (by decide) (List.mem_of_getLast? hlast)
  rw [List.takeWhile_eq_self_iff.2 (forall_bne_iff.2 hnewline),
    Text.dropReturn_of_getLast? hreturn] at hline
  exact hline

theorem complete_bulkySource_iff (file : String) :
    (Diagnostic.ofError ⟨.unrecognizedCharacter '@', ⟨1, length + 5⟩⟩
        (bulkySource length) file).complete = true ↔
      length + 5 ≤ Diagnostic.widest := by
  have hindent : (bulkySource length).toList.takeWhile Diagnostic.isIndent = [] := by
    simp [bulkySource, Trivia.text, Diagnostic.isIndent]
  rw [Diagnostic.complete_iff]
  simp [line?_bulkySource, hindent]

end Bulky

/-- The widest caret that can be laid out. -/
theorem complete_bulkySource :
    tokenize (bulkySource 65530) = .error ⟨.unrecognizedCharacter '@', ⟨1, 65535⟩⟩ ∧
      (Diagnostic.ofError ⟨.unrecognizedCharacter '@', ⟨1, 65535⟩⟩ (bulkySource 65530)
        "a.cs").complete = true := by
  have herror := tokenize_bulkySource 65530
  have hwidest : 65530 + 5 ≤ Diagnostic.widest := Nat.le_refl _
  obtain ⟨hwhole, -, -⟩ := complete_of_tokenize "a.cs" herror
  exact ⟨herror, hwhole.2 (Or.inr
    ⟨_, line?_bulkySource 65530, hwidest.trans (Nat.le_add_left _ _)⟩)⟩

/-- One more column, and the diagnostic of an error of a text breaks off. -/
theorem breaks_off_bulkySource :
    tokenize (bulkySource 65531) = .error ⟨.unrecognizedCharacter '@', ⟨1, 65536⟩⟩ ∧
      (Diagnostic.ofError ⟨.unrecognizedCharacter '@', ⟨1, 65536⟩⟩ (bulkySource 65531)
        "a.cs").complete = false ∧
      ¬ ∀ (source file : String) (error : Error), tokenize source = .error error →
        (Diagnostic.ofError error source file).complete = true := by
  have herror := tokenize_bulkySource 65531
  have hbroken : (Diagnostic.ofError ⟨.unrecognizedCharacter '@', ⟨1, 65531 + 5⟩⟩
      (bulkySource 65531) "a.cs").complete ≠ true := by
    intro hwhole
    exact absurd ((complete_bulkySource_iff 65531 "a.cs").1 hwhole) (by decide)
  refine ⟨herror, Bool.eq_false_iff.2 hbroken, ?_⟩
  intro hall
  exact hbroken (hall _ _ _ herror)

end SharpLexer
