import Mathlib.Tactic.SplitIfs
import SharpLexer.Token.Basic

/-!
# A token on one line

A listing shows one token on a line.  This module says that the form in which
a token is shown holds no newline, whatever its lexeme holds.

* `Text.newline_not_mem_spell` is the one place where a newline of a text could
  get through: a quoted text spells it as an escape.
* The numbers of a token are rows of digits: `Nat.newline_not_mem_toDigits` for
  natural numbers, and `Binary64.newline_not_mem_render` for floats.
* `Token.newline_not_mem_render` puts the parts together.
-/

/-! ## Digits -/

/-- Every character of a numeral shows a digit. -/
theorem Nat.exists_digitChar_of_mem_toDigits {base : Nat} (hbase : 1 < base) {n : Nat} {c : Char}
    (h : c ∈ Nat.toDigits base n) : ∃ d, c = Nat.digitChar d := by
  induction n using Nat.strongRecOn with
  | ind n ih =>
    rw [Nat.toDigits_eq_if hbase] at h
    split at h
    · exact ⟨n, List.mem_singleton.1 h⟩
    · next hle =>
      rcases List.mem_append.1 h with hfront | hlast
      · exact ih (n / base) (Nat.div_lt_self (by omega) hbase) hfront
      · exact ⟨n % base, List.mem_singleton.1 hlast⟩

theorem Nat.newline_not_mem_toDigits {base : Nat} (hbase : 1 < base) (n : Nat) :
    '\n' ∉ Nat.toDigits base n := by
  intro h
  obtain ⟨d, hd⟩ := Nat.exists_digitChar_of_mem_toDigits hbase h
  exact Nat.digitChar_ne '\n' (by decide) hd.symm

theorem Nat.newline_not_mem_repr (n : Nat) : '\n' ∉ n.repr.toList := by
  rw [Nat.toList_repr]
  exact Nat.newline_not_mem_toDigits (by decide) n

/-- A number is told from its digits. -/
theorem Nat.eq_of_repr_eq {m n : Nat} (h : m.repr = n.repr) : m = n := by
  have hdigits : Nat.toDigits 10 m = Nat.toDigits 10 n := by
    rw [← Nat.toList_repr, h, Nat.toList_repr]
  have hvalue := congrArg (Nat.ofDigitChars 10 · 0) hdigits
  simpa only [Nat.ofDigitChars_ten_toDigits] using hvalue

/-- A sign is no digit, so it tells the numbers below zero from the others. -/
theorem Int.eq_of_repr_eq {a b : Int} (h : a.repr = b.repr) : a = b := by
  have hsign : ∀ m n : Nat, m.repr ≠ "-" ++ n.repr := by
    intro m n hrepr
    have hmem : '-' ∈ m.repr.toList := by simp [hrepr]
    rw [Nat.toList_repr] at hmem
    exact absurd (Nat.isDigit_of_mem_toDigits (by decide) (by decide) hmem) (by decide)
  cases a with
  | ofNat m =>
    cases b with
    | ofNat n => exact congrArg Int.ofNat (Nat.eq_of_repr_eq h)
    | negSucc n => exact absurd h (hsign m n.succ)
  | negSucc m =>
    cases b with
    | ofNat n => exact absurd h.symm (hsign n m.succ)
    | negSucc n =>
      have hnat := Nat.eq_of_repr_eq ((String.append_right_inj "-").1 h)
      exact congrArg Int.negSucc (Nat.succ.inj hnat)

theorem Int.newline_not_mem_repr (n : Int) : '\n' ∉ n.repr.toList := by
  cases n with
  | ofNat m => exact Nat.newline_not_mem_repr m
  | negSucc m =>
    show '\n' ∉ ("-" ++ m.succ.repr).toList
    rw [String.toList_append, List.mem_append, not_or]
    exact ⟨by decide, Nat.newline_not_mem_repr _⟩

namespace SharpLexer

/-! ## Quoted texts -/

namespace Text

/-- A newline is spelled as an escape, and no other character as a newline. -/
theorem newline_not_mem_spell {delimiter : Char} (hdelimiter : delimiter ≠ '\n') (c : Char) :
    '\n' ∉ spell delimiter c := by
  have hdigits : '\n' ∉ Nat.toDigits 16 c.toNat :=
    Nat.newline_not_mem_toDigits (by decide) _
  by_cases hc : c = '\n'
  · subst hc
    simp [spell]
  · unfold spell
    split_ifs <;> simp [codeEscape, hdigits, hdelimiter.symm, Ne.symm hc]

theorem newline_not_mem_enclose {delimiter : Char} (hdelimiter : delimiter ≠ '\n')
    (text : List Char) : '\n' ∉ enclose delimiter text := by
  simp [enclose, hdelimiter.symm, newline_not_mem_spell hdelimiter]

theorem newline_not_mem_quoteText (text : String) : '\n' ∉ (quoteText text).toList := by
  rw [quoteText, String.toList_ofList]
  exact newline_not_mem_enclose (by decide) _

end Text

/-! ## The fields of a token -/

theorem Kind.newline_not_mem_name (kind : Kind) : '\n' ∉ kind.name.toList := by
  have hall : ∀ kind ∈ Kind.all, '\n' ∉ kind.name.toList := by decide +kernel
  exact hall kind kind.mem_all

namespace Binary64

theorem newline_not_mem_padded (width n : Nat) : '\n' ∉ padded width n := by
  simp [padded, Nat.newline_not_mem_toDigits]

theorem mem_of_mem_dropZeros {c : Char} {text : List Char} (h : c ∈ dropZeros text) :
    c ∈ text := by
  have hdrop := List.mem_reverse.1 h
  exact List.mem_reverse.1 ((List.dropWhile_sublist _).mem hdrop)

theorem newline_not_mem_positional (count places : Nat) : '\n' ∉ positional count places := by
  have hwhole : '\n' ∉ Nat.toDigits 10 (count / Nat.pow 10 places) :=
    Nat.newline_not_mem_toDigits (by decide) _
  have hfraction : '\n' ∉ dropZeros (padded places (count % Nat.pow 10 places)) := by
    intro h
    exact newline_not_mem_padded _ _ (mem_of_mem_dropZeros h)
  simp only [positional]
  split
  · exact hwhole
  · rw [List.mem_append, List.mem_cons, not_or, not_or]
    exact ⟨hwhole, by decide, hfraction⟩

theorem newline_not_mem_render (x : Binary64) : '\n' ∉ x.render.toList := by
  have hdigits := newline_not_mem_positional (shortest x.magnitude) leastExponent
  unfold render
  split_ifs <;> simp [hdigits]

end Binary64

theorem Literal.newline_not_mem_render (value : Literal) : '\n' ∉ value.render.toList := by
  cases value with
  | int value => simp [render, Int.newline_not_mem_repr]
  | float value => simp [render, Binary64.newline_not_mem_render]

/-- A token is shown on one line. -/
theorem Token.newline_not_mem_render (token : Token) : '\n' ∉ token.render.toList := by
  have hkind := token.kind.newline_not_mem_name
  have hlexeme := Text.newline_not_mem_quoteText token.lexeme
  have hline := Nat.newline_not_mem_repr token.position.line
  have hcolumn := Nat.newline_not_mem_repr token.position.column
  unfold render
  simp only [String.toList_append, List.mem_append, not_or]
  refine ⟨⟨⟨⟨⟨⟨⟨⟨⟨?_, hkind⟩, ?_⟩, hlexeme⟩, ?_⟩, hline⟩, ?_⟩, hcolumn⟩, ?value⟩, ?_⟩
  case value =>
    cases token.literal? with
    | none => exact List.not_mem_nil
    | some value => simp [value.newline_not_mem_render]
  all_goals decide

end SharpLexer
