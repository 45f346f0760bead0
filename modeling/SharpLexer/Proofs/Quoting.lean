import SharpLexer.Proofs.LongestMatch
import SharpLexer.Proofs.TokenLine

/-!
# Quoted texts are read back

Between its delimiters a text shows every character by itself or by an escape.  Whatever is
chosen for which character, the text and the place of the closing delimiter are told by what
is written, also where the text holds delimiters, backslashes or escapes of its own.

* `Text.Written` lists the ways to write a character, and `Text.written_spell` says that
  `Text.spell` chooses one of them.
* `Text.next?` reads one written character.  `Text.Written.next?_append` says that it finds
  the character, whatever stands behind it.
* `Text.Spelled.inj` is about a whole text, by induction on it.
-/

namespace SharpLexer.Text

/-! ## Ways to write a character -/

/-- The letters that follow a backslash, and what they stand for. -/
def escapes : List (Char × Char) :=
  [('0', '\x00'), ('t', '\t'), ('r', '\r'), ('n', '\n'), ('\\', '\\')]

/-- The ways to write a character between two delimiters. -/
inductive Written (delimiter : Char) : Char → List Char → Prop where
  /-- A character stands for itself unless it opens an escape or ends the text. -/
  | plain {c : Char} (hslash : c ≠ '\\') (hdelimiter : c ≠ delimiter) : Written delimiter c [c]
  | letter {c mark : Char} (hmark : (mark, c) ∈ escapes) : Written delimiter c ['\\', mark]
  | delimiter : Written delimiter delimiter ['\\', delimiter]
  /-- Every character may be written by its code point. -/
  | code (c : Char) : Written delimiter c (codeEscape c)

theorem written_spell (delimiter c : Char) : Written delimiter c (spell delimiter c) := by
  unfold spell
  split_ifs with hnul htab hreturn hnewline hslash hdelimiter
  · rw [hnul]
    exact .letter (by decide)
  · rw [htab]
    exact .letter (by decide)
  · rw [hreturn]
    exact .letter (by decide)
  · rw [hnewline]
    exact .letter (by decide)
  · rw [hslash]
    exact .letter (by decide)
  · rw [hdelimiter]
    exact .delimiter
  · exact .code c
  · exact .plain hslash hdelimiter

/-! ## Reading one character -/

/-- The digit that a hexadecimal digit stands for. -/
def hexValue (c : Char) : Nat :=
  if c.isDigit then c.toNat - '0'.toNat else c.toNat - 'a'.toNat + 10

/-- The number that a row of hexadecimal digits stands for. -/
def hexNumber (digits : List Char) : Nat := digits.foldl (fun n c => 16 * n + hexValue c) 0

theorem hexValue_digitChar : ∀ d < 16, hexValue (Nat.digitChar d) = d := by decide

theorem hexNumber_toDigits (n : Nat) : hexNumber (Nat.toDigits 16 n) = n := by
  induction n using Nat.strongRecOn with
  | ind n ih =>
    rw [Nat.toDigits_eq_if (by decide)]
    split
    · next hlt =>
      show 16 * 0 + hexValue (Nat.digitChar n) = n
      rw [hexValue_digitChar n hlt]
      omega
    · next hle =>
      have hfront := ih (n / 16) (by omega)
      rw [hexNumber] at hfront
      rw [hexNumber, List.foldl_append, hfront]
      show 16 * (n / 16) + hexValue (Nat.digitChar (n % 16)) = n
      rw [hexValue_digitChar (n % 16) (by omega)]
      omega

theorem brace_not_mem_toDigits (n : Nat) : '\x7d' ∉ Nat.toDigits 16 n := by
  intro hmem
  obtain ⟨d, hd⟩ := Nat.exists_digitChar_of_mem_toDigits (by decide) hmem
  exact Nat.digitChar_ne '\x7d' (by decide) hd.symm

/-- The character that is written at the front of a text, and the text behind it.  There is
none where the delimiter stands. -/
def next? (delimiter : Char) : List Char → Option (Char × List Char)
  | '\\' :: 'u' :: '\x7b' :: rest =>
    some (Char.ofNat (hexNumber (rest.takeWhile (· != '\x7d'))),
      (rest.dropWhile (· != '\x7d')).tail)
  | '\\' :: mark :: rest =>
    if mark = delimiter then some (delimiter, rest) else (escapes.lookup mark).map (·, rest)
  | c :: rest => if c = delimiter then none else some (c, rest)
  | [] => none

theorem next?_codeEscape (delimiter c : Char) (rest : List Char) :
    next? delimiter (codeEscape c ++ rest) = some (c, rest) := by
  have hbrace : ∀ d ∈ ('\x7d' :: rest).head?, (d != '\x7d') = false := by simp
  have hdigits := forall_bne_iff.2 (brace_not_mem_toDigits c.toNat)
  simp only [codeEscape, List.append_assoc, List.cons_append, List.nil_append, next?,
    takeWhile_span hdigits hbrace, dropWhile_span hdigits hbrace, hexNumber_toDigits,
    Char.ofNat_toNat, List.tail_cons]

theorem next?_of_ne {delimiter c : Char} (hslash : c ≠ '\\') (hdelimiter : c ≠ delimiter)
    (rest : List Char) : next? delimiter (c :: rest) = some (c, rest) := by
  unfold next?
  split
  · next heq => exact absurd (List.cons.inj heq).1 hslash
  · next heq => exact absurd (List.cons.inj heq).1 hslash
  · next heq =>
    obtain ⟨rfl, rfl⟩ := List.cons.inj heq
    exact if_neg hdelimiter
  · next heq => exact absurd heq (by simp)

theorem escapes_spec : ∀ entry ∈ escapes, Item.isQuote entry.1 = false ∧ entry.1 ≠ 'u' ∧
    escapes.lookup entry.1 = some entry.2 := by
  decide

section Quote

variable {delimiter : Char} (hquote : Item.isQuote delimiter = true)
include hquote

theorem next?_letter {c mark : Char} (hmark : (mark, c) ∈ escapes) (rest : List Char) :
    next? delimiter ('\\' :: mark :: rest) = some (c, rest) := by
  obtain ⟨hletter, hcode, hlookup⟩ := escapes_spec _ hmark
  have hdelimiter : mark ≠ delimiter := by
    rintro rfl
    rw [hquote] at hletter
    exact absurd hletter (by decide)
  unfold next?
  split
  · next heq => exact absurd (List.cons.inj (List.cons.inj heq).2).1 hcode
  · next heq =>
    obtain ⟨rfl, rfl⟩ := List.cons.inj (List.cons.inj heq).2
    rw [if_neg hdelimiter, hlookup]
    rfl
  · next hnone heq =>
    obtain ⟨rfl, rfl⟩ := List.cons.inj heq
    exact absurd rfl (hnone mark rest rfl)
  · next heq => exact absurd heq (by simp)

/-- What is written is read, whatever stands behind it. -/
theorem Written.next?_append {c : Char} {written : List Char} (h : Written delimiter c written)
    (rest : List Char) : next? delimiter (written ++ rest) = some (c, rest) := by
  cases h with
  | plain hslash hdelimiter => exact next?_of_ne hslash hdelimiter rest
  | letter hmark => exact next?_letter hquote hmark rest
  | delimiter => rcases Item.eq_of_isQuote hquote with rfl | rfl <;> rfl
  | code => exact next?_codeEscape delimiter c rest

theorem next?_delimiter (rest : List Char) : next? delimiter (delimiter :: rest) = none := by
  rcases Item.eq_of_isQuote hquote with rfl | rfl <;> simp [next?]

end Quote

/-! ## Reading a text -/

/-- A text with every character written in one of its ways. -/
inductive Spelled (delimiter : Char) : List Char → List Char → Prop where
  | nil : Spelled delimiter [] []
  | cons {c : Char} {written text rest : List Char} (hfirst : Written delimiter c written)
      (hrest : Spelled delimiter text rest) : Spelled delimiter (c :: text) (written ++ rest)

theorem spelled_flatMap (delimiter : Char) (text : List Char) :
    Spelled delimiter text (text.flatMap (spell delimiter)) := by
  induction text with
  | nil => exact .nil
  | cons c text ih => exact .cons (written_spell delimiter c) ih

/-- The first delimiter that is not escaped ends the text, and the text is told by what
stands in front of it. -/
theorem Spelled.inj {delimiter : Char} (hquote : Item.isQuote delimiter = true)
    {s t v w : List Char} (hs : Spelled delimiter s v) (ht : Spelled delimiter t w)
    {x y : List Char} (h : v ++ delimiter :: x = w ++ delimiter :: y) : s = t ∧ x = y := by
  have hnone := next?_delimiter hquote
  induction hs generalizing t w with
  | nil =>
    cases ht with
    | nil => exact ⟨rfl, (List.cons.inj h).2⟩
    | @cons d written text rest hfirst hrest =>
      have hread := hfirst.next?_append hquote (rest ++ delimiter :: y)
      rw [← List.append_assoc, ← h, List.nil_append, hnone] at hread
      exact absurd hread (by simp)
  | @cons c written text rest hfirst hrest ih =>
    have hread := hfirst.next?_append hquote (rest ++ delimiter :: x)
    rw [← List.append_assoc, h] at hread
    cases ht with
    | nil =>
      rw [List.nil_append, hnone] at hread
      exact absurd hread (by simp)
    | @cons d written' text' rest' hfirst' hrest' =>
      rw [List.append_assoc, hfirst'.next?_append hquote, Option.some.injEq] at hread
      obtain ⟨rfl, hback⟩ := Prod.mk.inj hread
      obtain ⟨rfl, hend⟩ := ih hrest' hback.symm
      exact ⟨rfl, hend⟩

end SharpLexer.Text
