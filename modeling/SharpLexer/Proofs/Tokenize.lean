import Mathlib.Data.List.Forall2
import SharpLexer.Proofs.Run

/-!
# The tokens of a text

`tokenize` reads a whole text and refuses it at the first fault.  Here it
is taken apart into single readings.

* `Cursor.tokens` is what `tokenize` does from a cursor on, and
  `Cursor.tokens_eq_ok_iff` unfolds it by one reading.
* `Cursor.tokens_paired` compares the tokens of two runs: `Paired` is a
  relation of two results, and where the outcomes of two runs are paired one
  by one, so are their tokens.
* `Cursor.exists_lexed_of_tokens` says what a list of tokens looks like: the
  tokens of items, and one end mark behind them.
-/

namespace SharpLexer

/-- A token that an item with a meaning makes. -/
def Token.Lexed (token : Token) : Prop :=
  ∃ item : Item, item.WellFormed ∧ (∃ p, item.outcome p = .ok token) ∧ token.kind ≠ .stray

theorem Token.Lexed.isEof_eq_false {token : Token} (h : token.Lexed) : token.isEof = false := by
  obtain ⟨item, hshape, ⟨p, hp⟩, -⟩ := h
  have hend := Item.isEnd_outcome hshape p
  rw [hp] at hend
  exact hend

theorem Outcome.strict_eq_ok_iff {outcome : Outcome} {token : Token} :
    Outcome.strict outcome = .ok token ↔ outcome = .ok token ∧ token.kind ≠ .stray := by
  cases outcome with
  | error error => simp [Outcome.strict]
  | ok found =>
    by_cases hstray : found.kind = .stray
    · simp only [Outcome.strict, if_pos hstray, reduceCtorEq, Except.ok.injEq, false_iff, not_and,
        not_not]
      intro heq
      rw [← heq]
      exact hstray
    · simp only [Outcome.strict, if_neg hstray, Except.ok.injEq]
      constructor
      · intro heq
        rw [← heq]
        exact ⟨rfl, hstray⟩
      · intro h
        exact h.1

/-- A stray token is refused by the character that it stands for. -/
theorem Outcome.strict_of_stray {token : Token} (hstray : token.kind = .stray) {c : Char}
    (hlexeme : token.lexeme.toList = [c]) :
    Outcome.strict (.ok token) = .error ⟨.unrecognizedCharacter c, token.position⟩ := by
  rw [Outcome.strict, if_pos hstray, hlexeme]
  rfl

namespace Cursor

/-- What is refused of a reading is its error, or a character that starts no
token. -/
theorem strict_eq_error_cases {c : Cursor} {error : Error}
    (h : c.next.value.strict = .error error) :
    (c.next.value = .error error ∧ ∀ d, error.fault ≠ .unrecognizedCharacter d) ∨
      ∃ token d, c.next.value = .ok token ∧ token.kind = .stray ∧
        token.lexeme.toList = [d] ∧ Item.isRecognised d = false ∧
        error = ⟨.unrecognizedCharacter d, token.position⟩ := by
  cases hvalue : c.next.value with
  | error found =>
    rw [hvalue] at h
    obtain rfl := Except.error.inj h
    exact Or.inl ⟨rfl, fault_ne_of_error hvalue⟩
  | ok token =>
    by_cases hstray : token.kind = .stray
    · obtain ⟨d, hunknown, hlexeme⟩ := exists_stray_of_kind hvalue hstray
      rw [hvalue, Outcome.strict_of_stray hstray hlexeme] at h
      exact Or.inr ⟨token, d, rfl, hstray, hlexeme, hunknown, (Except.error.inj h).symm⟩
    · rw [hvalue, Outcome.strict, if_neg hstray] at h
      exact absurd h (by simp)

theorem isRecognised_of_strict {c : Cursor} {error : Error}
    (h : c.next.value.strict = .error error) {d : Char}
    (hfault : error.fault = .unrecognizedCharacter d) : Item.isRecognised d = false := by
  rcases strict_eq_error_cases h with ⟨-, hne⟩ | ⟨token, e, -, -, -, hunknown, rfl⟩
  · exact absurd hfault (hne d)
  · obtain rfl := Fault.unrecognizedCharacter.inj hfault
    exact hunknown

/-- What is refused names the place of its reading. -/
theorem position_of_strict {c : Cursor} {error : Error}
    (h : c.next.value.strict = .error error) :
    c.next.value.isEnd = false ∧ c.next.value.position = error.position := by
  rcases strict_eq_error_cases h with ⟨hvalue, -⟩ | ⟨token, d, hvalue, hstray, -, -, rfl⟩
  · rw [hvalue]
    exact ⟨rfl, rfl⟩
  · rw [hvalue]
    exact ⟨by simp [Token.isEof, hstray], rfl⟩

theorem fault_ne_emptyInput_of_strict {c : Cursor} {error : Error}
    (h : c.next.value.strict = .error error) : error.fault ≠ .emptyInput := by
  rcases strict_eq_error_cases h with ⟨hvalue, -⟩ | ⟨token, d, -, -, -, -, rfl⟩
  · exact fault_ne_emptyInput_of_error hvalue
  · exact Fault.noConfusion

end Cursor

/-! ## Results in pairs -/

section Paired

variable {ε ε' α β : Type}

/-- Two results that are both values, which `R` relates, or both errors,
which `S` relates. -/
inductive Paired (S : ε → ε' → Prop) (R : α → β → Prop) : Except ε α → Except ε' β → Prop where
  | ok {a : α} {b : β} (h : R a b) : Paired S R (.ok a) (.ok b)
  | error {e : ε} {e' : ε'} (h : S e e') : Paired S R (.error e) (.error e')

theorem Paired.imp {S S' : ε → ε' → Prop} {R R' : α → β → Prop} {x : Except ε α}
    {y : Except ε' β} (h : Paired S R x y) (hS : ∀ e e', S e e' → S' e e')
    (hR : ∀ a b, R a b → R' a b) : Paired S' R' x y := by
  cases h with
  | ok h => exact .ok (hR _ _ h)
  | error h => exact .error (hS _ _ h)

/-- The same for errors alone, which may be told from the first result. -/
theorem Paired.imp_error {S S' : ε → ε' → Prop} {R : α → β → Prop} {x : Except ε α}
    {y : Except ε' β} (h : Paired S R x y) (hS : ∀ e e', x = .error e → S e e' → S' e e') :
    Paired S' R x y := by
  cases h with
  | ok h => exact .ok h
  | error h => exact .error (hS _ _ rfl h)

theorem Paired.bind {α' β' : Type} {S : ε → ε' → Prop} {R : α → β → Prop} {R' : α' → β' → Prop}
    {x : Except ε α} {y : Except ε' β} (h : Paired S R x y) {k : α → Except ε α'}
    {k' : β → Except ε' β'} (hk : ∀ a b, R a b → Paired S R' (k a) (k' b)) :
    Paired S R' (x.bind k) (y.bind k') := by
  cases h with
  | ok h => exact hk _ _ h
  | error h => exact .error h

/-- Lists are related by a function one by one where one is the image of the
other. -/
theorem forall₂_iff_map_eq {g : α → β} {front : List α} {back : List β} :
    List.Forall₂ (fun a b => g a = b) front back ↔ front.map g = back := by
  rw [← List.forall₂_map_left_iff (R := Eq), List.forall₂_eq_eq_eq]

theorem paired_map_iff {g : α → β} {k : ε → ε'} {x : Except ε α} {y : Except ε' β} :
    Paired (fun e e' => k e = e') (fun a b => g a = b) x y ↔ (x.map g).mapError k = y := by
  constructor
  · intro h
    cases h with
    | ok h => exact congrArg Except.ok h
    | error h => exact congrArg Except.error h
  · rintro rfl
    cases x with
    | ok a => exact .ok rfl
    | error e => exact .error rfl

end Paired

namespace Cursor

/-! ## The tokens of a cursor -/

/-- The tokens from a cursor on, the end mark included, or the first fault. -/
def tokens (c : Cursor) : Except Error (List Token) :=
  c.readings.mapM fun reading => Outcome.strict reading.value

theorem isLast_eq_isEnd (reading : Reading Outcome) : reading.isLast = reading.value.isEnd := by
  unfold Reading.isLast Outcome.isEnd
  cases reading.value <;> rfl

theorem tokens_eq (c : Cursor) :
    c.tokens =
      (Outcome.strict c.next.value).bind fun token =>
        if c.next.value.isEnd then .ok [token]
        else c.next.cursor.tokens.bind fun rest => .ok (token :: rest) := by
  unfold tokens
  rw [readings_eq, isLast_eq_isEnd]
  cases hvalue : Outcome.strict c.next.value with
  | error error => split <;> simp [List.mapM_cons, hvalue, bind, Except.bind]
  | ok token => split <;> simp [List.mapM_cons, hvalue, bind, Except.bind, pure, Except.pure]

theorem tokens_congr {c d : Cursor} (hvalue : c.next.value = d.next.value)
    (hcursor : c.next.cursor = d.next.cursor) : c.tokens = d.tokens := by
  rw [tokens_eq c, tokens_eq d, hvalue, hcursor]

/-- Runs with paired outcomes have paired tokens. -/
theorem tokens_paired {S : Error → Error → Prop} {R : Token → Token → Prop} {c d : Cursor}
    (hpaired : ∀ n, Paired S R (c.outcomeAt n).strict (d.outcomeAt n).strict)
    (hend : ∀ n, (c.outcomeAt n).isEnd = (d.outcomeAt n).isEnd) :
    Paired S (List.Forall₂ R) c.tokens d.tokens := by
  induction hlength : c.unread.length using Nat.strongRecOn generalizing c d with
  | ind length ih =>
    subst hlength
    rw [tokens_eq c, tokens_eq d]
    apply (hpaired 0).bind
    intro a b hab
    have hfirst : c.next.value.isEnd = d.next.value.isEnd := hend 0
    rw [← hfirst]
    cases hlast : c.next.value.isEnd with
    | true => exact .ok (.cons hab .nil)
    | false =>
      have hshorter := unread_next_lt ((isLast_eq_isEnd c.next).trans hlast)
      have hrest := ih _ hshorter (fun n => hpaired (n + 1)) (fun n => hend (n + 1)) rfl
      exact hrest.bind fun _ _ hlists => .ok (.cons hab hlists)

/-- Where the outcomes of a run are images of those of another, so are the
tokens. -/
theorem tokens_map {k : Error → Error} {g : Token → Token} {c d : Cursor}
    (hmap : ∀ n, ((c.outcomeAt n).strict.map g).mapError k = (d.outcomeAt n).strict)
    (hend : ∀ n, (c.outcomeAt n).isEnd = (d.outcomeAt n).isEnd) :
    (c.tokens.map (List.map g)).mapError k = d.tokens := by
  have hpaired := tokens_paired (fun n => paired_map_iff.2 (hmap n)) hend
  exact paired_map_iff.1 (hpaired.imp (fun _ _ => id) fun _ _ => forall₂_iff_map_eq.1)

/-- The tokens are that of the first reading and those of the run behind it. -/
theorem tokens_eq_ok_iff {c : Cursor} {list : List Token} :
    c.tokens = .ok list ↔
      ∃ token, c.next.value = .ok token ∧ token.kind ≠ .stray ∧
        ((token.isEof = true ∧ list = [token]) ∨
          (token.isEof = false ∧
            ∃ rest, c.next.cursor.tokens = .ok rest ∧ list = token :: rest)) := by
  rw [tokens_eq]
  constructor
  · intro h
    cases hstrict : Outcome.strict c.next.value with
    | error error =>
      rw [hstrict] at h
      exact absurd h (by simp [Except.bind])
    | ok token =>
      obtain ⟨hvalue, hstray⟩ := Outcome.strict_eq_ok_iff.1 hstrict
      rw [hstrict, hvalue] at h
      refine ⟨token, hvalue, hstray, ?_⟩
      cases hend : token.isEof with
      | true =>
        simp only [Except.bind, Outcome.isEnd, hend, if_true, Except.ok.injEq] at h
        exact Or.inl ⟨rfl, h.symm⟩
      | false =>
        simp only [Except.bind, Outcome.isEnd, hend, Bool.false_eq_true, if_false] at h
        cases hrest : c.next.cursor.tokens with
        | error error => simp [hrest] at h
        | ok rest =>
          simp only [hrest, Except.ok.injEq] at h
          exact Or.inr ⟨rfl, rest, rfl, h.symm⟩
  · intro h
    obtain ⟨token, hvalue, hstray, hlist⟩ := h
    have hstrict := Outcome.strict_eq_ok_iff.2 ⟨hvalue, hstray⟩
    rcases hlist with ⟨hend, rfl⟩ | ⟨hend, rest, hrest, rfl⟩
    · rw [hstrict, hvalue]
      simp [Except.bind, Outcome.isEnd, hend]
    · rw [hstrict, hvalue, hrest]
      simp [Except.bind, Outcome.isEnd, hend]

/-- An error of the tokens is that of a reading. -/
theorem exists_outcomeAt_of_tokens {c : Cursor} {error : Error} (h : c.tokens = .error error) :
    ∃ n, (c.outcomeAt n).strict = .error error := by
  induction hlength : c.unread.length using Nat.strongRecOn generalizing c with
  | ind length ih =>
    subst hlength
    cases hstrict : c.next.value.strict with
    | error found =>
      rw [tokens_eq, hstrict] at h
      obtain rfl := Except.error.inj h
      exact ⟨0, hstrict⟩
    | ok token =>
      rw [tokens_eq, hstrict] at h
      cases hend : c.next.value.isEnd with
      | true => simp [Except.bind, hend] at h
      | false =>
        cases hrest : c.next.cursor.tokens with
        | ok rest => simp [Except.bind, hend, hrest] at h
        | error found =>
          simp only [Except.bind, hend, Bool.false_eq_true, if_false, hrest] at h
          obtain rfl := Except.error.inj h
          have hshorter := unread_next_lt ((isLast_eq_isEnd c.next).trans hend)
          obtain ⟨n, hn⟩ := ih _ hshorter hrest rfl
          exact ⟨n + 1, hn⟩

/-- A list of tokens holds those of items, and one end mark behind them. -/
theorem exists_lexed_of_tokens {c : Cursor} {list : List Token} (h : c.tokens = .ok list) :
    ∃ front p, list = front ++ [.eof p] ∧ ∀ token ∈ front, token.Lexed := by
  induction list generalizing c with
  | nil =>
    obtain ⟨token, -, -, ⟨-, hlist⟩ | ⟨-, rest, -, hlist⟩⟩ := tokens_eq_ok_iff.1 h
    · simp at hlist
    · simp at hlist
  | cons first list ih =>
    obtain ⟨token, hvalue, hstray, hlist⟩ := tokens_eq_ok_iff.1 h
    rcases c.next_cases with
      ⟨gap, -, -, hnext⟩ | ⟨gap, item, tail, -, hshape, -, -, hnext⟩
    · obtain rfl : Token.eof c.endPlace = token := by
        rw [hnext] at hvalue
        exact Except.ok.inj hvalue
      rcases hlist with ⟨-, hlist⟩ | ⟨hend, -⟩
      · exact ⟨[], c.endPlace, hlist, by simp⟩
      · exact absurd hend (by simp)
    · have hlexed : token.Lexed := by
        rw [hnext] at hvalue
        exact ⟨item, hshape, ⟨_, hvalue⟩, hstray⟩
      rcases hlist with ⟨hend, -⟩ | ⟨-, rest, hrest, hlist⟩
      · rw [hlexed.isEof_eq_false] at hend
        exact absurd hend (by decide)
      · obtain ⟨rfl, rfl⟩ := List.cons.inj hlist
        obtain ⟨front, p, rfl, hfront⟩ := ih hrest
        refine ⟨first :: front, p, rfl, ?_⟩
        intro t ht
        rcases List.mem_cons.1 ht with rfl | ht
        · exact hlexed
        · exact hfront t ht

end Cursor

/-- A text that holds more than blanks has the tokens of its fresh cursor. -/
theorem tokenize_eq (source : String) :
    tokenize source =
      if source.toList.all Text.isBlank then .error ⟨.emptyInput, Position.nowhere⟩
      else (Cursor.start source.toList).tokens := by
  unfold tokenize Cursor.ofSource
  cases hblank : source.toList.all Text.isBlank with
  | true => simp [hblank, bind, Except.bind]
  | false => simp [hblank, bind, Except.bind, Cursor.tokens]

theorem tokenize_eq_ok_iff {source : String} {list : List Token} :
    tokenize source = .ok list ↔
      source.toList.all Text.isBlank = false ∧ (Cursor.start source.toList).tokens = .ok list := by
  rw [tokenize_eq]
  cases source.toList.all Text.isBlank <;> simp

/-- The error of a text is that of an empty one, or of a reading. -/
theorem tokenize_eq_error_cases {source : String} {error : Error}
    (h : tokenize source = .error error) :
    (source.toList.all Text.isBlank = true ∧ error = ⟨.emptyInput, Position.nowhere⟩) ∨
      ∃ n, ((Cursor.start source.toList).outcomeAt n).strict = .error error := by
  rw [tokenize_eq] at h
  split at h
  · next hblank => exact Or.inl ⟨hblank, (Except.error.inj h).symm⟩
  · exact Or.inr (Cursor.exists_outcomeAt_of_tokens h)

end SharpLexer
