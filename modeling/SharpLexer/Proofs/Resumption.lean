import SharpLexer.Proofs.Run

/-!
# Reading on is reading anew

A cursor keeps nothing of what it has read but its place.  So a run from
any cursor gives what a fresh run over the text ahead gives, with the
places counted on from the place of the cursor.  It makes no difference
whether tokens or errors went before.

* `Position.behind` counts a place on from another one, and
  `Position.behind_advance` says that the counters can be started anywhere.
* `Cursor.Resumes` relates two cursors with the same text ahead.
  `Cursor.resumes_next` is one step of the two runs, and
  `Cursor.outcomeAt_of_resumes` any number of them.
* `resume_of_ofSource` is the statement for every cursor of every run.
-/

namespace SharpLexer

open Trivia (gapText)

/-! ## Places counted on from another place -/

namespace Position

/-- The place `p` of a text that starts behind `base`.  Only the first line
of the text shares its columns with what stands in front of it. -/
def behind (base p : Position) : Position :=
  ⟨base.line + p.line - 1, if p.line = 1 then base.column + p.column else p.column⟩

theorem behind_right (base p : Position) : base.behind p.right = (base.behind p).right := by
  by_cases h : p.line = 1 <;> simp [behind, right, h, Nat.add_assoc]

theorem line_step_pos {p : Position} (h : 1 ≤ p.line) (c : Char) : 1 ≤ (p.step c).line := by
  by_cases hc : c = '\n'
  · simp [hc]
  · rw [step_of_ne hc]
    exact h

theorem line_advance_pos {p : Position} (h : 1 ≤ p.line) (text : List Char) :
    1 ≤ (p.advance text).line := by
  induction text generalizing p with
  | nil => exact h
  | cons c text ih => exact ih (line_step_pos h c)

theorem behind_step (base : Position) {p : Position} (h : 1 ≤ p.line) (c : Char) :
    base.behind (p.step c) = (base.behind p).step c := by
  by_cases hc : c = '\n'
  · have hline : p.line ≠ 0 := by omega
    subst hc
    simp only [step_newline, behind, mk.injEq]
    constructor
    · omega
    · simp [hline]
  · rw [step_of_ne hc, step_of_ne hc, behind_right]

theorem behind_advance (base : Position) {p : Position} (h : 1 ≤ p.line) (text : List Char) :
    base.behind (p.advance text) = (base.behind p).advance text := by
  induction text generalizing p with
  | nil => rfl
  | cons c text ih => rw [advance_cons, advance_cons, ih (line_step_pos h c), behind_step base h]

end Position

/-- An outcome with its place counted on from `base`. -/
def Outcome.behind (base : Position) : Outcome → Outcome
  | .ok token => .ok { token with position := base.behind token.position }
  | .error error => .error { error with position := base.behind error.position }

theorem Item.outcome_behind (base p : Position) (item : Item) :
    item.outcome (base.behind p) = Outcome.behind base (item.outcome p) := by
  cases item with
  | number literal =>
    simp only [outcome]
    split <;> rfl
  | _ => rfl

namespace Cursor

/-! ## Two runs over one text -/

/-- Two cursors with the same text ahead.  The places of the first are those
of the second, counted on from `base`. -/
inductive Resumes (base : Position) : Cursor → Cursor → Prop where
  | within {current current' : Char} {rest : List Char} {p : Position} (hline : 1 ≤ p.line) :
      Resumes base (within current rest (base.behind p)) (within current' rest p)
  | closing {p : Position} : Resumes base (closing (base.behind p)) (closing p)
  | ended {p : Position} : Resumes base (ended (base.behind p)) (ended p)

variable {base : Position} {c d : Cursor}

/-- One reading gives the same outcome on both sides, and leaves the same
text ahead. -/
theorem resumes_next (h : Resumes base c d) :
    c.next.value = d.next.value.behind base ∧ Resumes base c.next.cursor d.next.cursor := by
  cases h with
  | @within current current' rest p hline =>
    have hgap := Position.behind_advance base hline (gapText (Trivia.split rest).1)
    have hplace : ((base.behind p).advance (gapText (Trivia.split rest).1)).right =
        base.behind (p.advance (gapText (Trivia.split rest).1)).right := by
      rw [Position.behind_right, hgap]
    simp only [next, read, hplace]
    rcases (Trivia.split rest).2 with _ | ⟨d, back⟩
    · exact ⟨rfl, .ended⟩
    · refine ⟨Item.outcome_behind base _ _, ?_⟩
      have hfront := Position.line_advance_pos hline (gapText (Trivia.split rest).1)
      simp only [after, ← hgap, ← Position.behind_advance base hfront]
      split
      · rw [← Position.behind_right]
        exact .closing
      · exact .within (Position.line_advance_pos hfront _)
  | closing => exact ⟨rfl, .ended⟩
  | ended => exact ⟨rfl, .ended⟩

theorem outcomeAt_of_resumes (h : Resumes base c d) (n : Nat) :
    c.outcomeAt n = (d.outcomeAt n).behind base := by
  induction n generalizing c d with
  | zero => exact (resumes_next h).1
  | succ n ih =>
    show c.next.cursor.outcomeAt n = (d.next.cursor.outcomeAt n).behind base
    exact ih (resumes_next h).2

/-! ## A fresh run -/

/-- A fresh run starts where nothing is counted on yet. -/
theorem resumes_start (current : Char) (rest : List Char) (p : Position) :
    Resumes p (within current rest p) (start rest) := by
  have hline : 1 ≤ Position.start.line := Nat.le_refl 1
  -- a place counted on by nothing is the same place
  show Resumes p (within current rest (p.behind Position.start)) (start rest)
  exact Resumes.within hline

/-- With more than blanks ahead, the text ahead can be opened anew, and the
two runs go on alike. -/
theorem exists_resumes {c : Cursor} (h : c.unread.all Text.isBlank = false) :
    ∃ fresh, ofSource (String.ofList c.unread) = .ok fresh ∧
      Resumes c.position c fresh.cursor := by
  refine ⟨⟨(), [.opened c.unread.length], start c.unread⟩,
    ofSource_eq_ok_iff.2 ⟨by simpa using h, by simp⟩, ?_⟩
  cases c with
  | within current rest p => exact resumes_start current rest p
  | closing p => exact absurd h (by simp [unread])
  | ended p => exact absurd h (by simp [unread])

end Cursor

/-- From every cursor of every run, the outcomes are those of a fresh run
over the text ahead, counted on from the place of the cursor.  Where only
blanks are ahead, every outcome is the end mark. -/
theorem resume_of_ofSource {source : String} {opened : Reading Unit}
    (h : Cursor.ofSource source = .ok opened) (n : Nat) :
    (opened.cursor.later n).StandsIn source.toList ∧
      ((opened.cursor.later n).unread.all Text.isBlank = false →
        ∃ fresh, Cursor.ofSource (String.ofList (opened.cursor.later n).unread) = .ok fresh ∧
          ∀ k, (opened.cursor.later n).outcomeAt k =
            (fresh.cursor.outcomeAt k).behind (opened.cursor.later n).position) ∧
      ((opened.cursor.later n).unread.all Text.isBlank = true →
        ∀ k, (opened.cursor.later n).outcomeAt k =
          .ok (.eof (opened.cursor.later n).endPlace)) := by
  obtain ⟨-, rfl⟩ := Cursor.ofSource_eq_ok_iff.1 h
  refine ⟨Cursor.standsIn_later (Cursor.standsIn_start source.toList) n, ?_, ?_⟩
  · intro hahead
    obtain ⟨fresh, hfresh, hresumes⟩ := Cursor.exists_resumes hahead
    exact ⟨fresh, hfresh, Cursor.outcomeAt_of_resumes hresumes⟩
  · intro hblank
    exact Cursor.outcomeAt_of_blank hblank

/-- A number that cannot be read, a name, and a string without an end. -/
def brokenSource : String := "1.2.3\n x 'it"

/-- Behind the first failure of `brokenSource`, a fresh run reads what is left. -/
theorem resume_in_brokenSource :
    Cursor.ofSource brokenSource =
        .ok ⟨(), [.opened 12], Cursor.start brokenSource.toList⟩ ∧
      ((Cursor.start brokenSource.toList).later 1).unread.all Text.isBlank = false ∧
      ∃ fresh,
        Cursor.ofSource
            (String.ofList ((Cursor.start brokenSource.toList).later 1).unread) = .ok fresh ∧
          ∀ k, ((Cursor.start brokenSource.toList).later 1).outcomeAt k =
            (fresh.cursor.outcomeAt k).behind
              ((Cursor.start brokenSource.toList).later 1).position := by
  have hopened : Cursor.ofSource brokenSource =
      .ok ⟨(), [.opened 12], Cursor.start brokenSource.toList⟩ :=
    Cursor.ofSource_eq_ok_iff.2 ⟨by decide, rfl⟩
  have hahead : ((Cursor.start brokenSource.toList).later 1).unread.all Text.isBlank = false := by
    decide +kernel
  exact ⟨hopened, hahead, (resume_of_ofSource hopened 1).2.1 hahead⟩

end SharpLexer
