import SharpLexer.Proofs.Alike

/-!
# The case of letters

A reader makes no difference between the two cases of a letter.  Outside of
strings and comments a letter stands in a word, and a word means the same in
either case, whatever the tables of words say of it.

* `SameLetter` relates two characters that differ in their case at most.
  `SameLetter.alike` says that they are one to a reader, and
  `SameLetter.eq_of_not_isRecognised` that a character which it does not know
  has no case.
* `run_of_sameLetters` compares the runs over two texts of the same letters.
-/

namespace SharpLexer

/-- What is no capital letter is in lower case. -/
theorem toLower_of_not_isUpper {c : Char} (h : c.isUpper = false) : c.toLower = c :=
  dif_neg (of_decide_eq_false h)

theorem isLower_toLower {c : Char} (h : c.isUpper = true) : c.toLower.isLower = true := by
  have hupper : 'A'.val ≤ c.val ∧ c.val ≤ 'Z'.val := of_decide_eq_true h
  have hval : c.toLower.val = c.val + ('a'.val - 'A'.val) :=
    congrArg Char.val (dif_pos hupper)
  have hlower : c.toLower.isLower =
      (decide ('a'.val ≤ c.toLower.val) && decide (c.toLower.val ≤ 'z'.val)) := rfl
  have hfirst : 65 ≤ c.val.toNat := UInt32.le_iff_toNat_le.1 hupper.1
  have hlast : c.val.toNat ≤ 90 := UInt32.le_iff_toNat_le.1 hupper.2
  rw [hlower, hval]
  simp only [UInt32.le_iff_toNat_le, UInt32.toNat_add, Bool.and_eq_true, decide_eq_true_eq]
  constructor
  · show 97 ≤ (c.val.toNat + 32) % 4294967296
    omega
  · show (c.val.toNat + 32) % 4294967296 ≤ 122
    omega

theorem isAlpha_eq_or (c : Char) : c.isAlpha = (c.isUpper || c.isLower) := rfl

/-- A letter stays a letter, and nothing else becomes one. -/
theorem isAlpha_toLower (c : Char) : c.toLower.isAlpha = c.isAlpha := by
  cases h : c.isUpper with
  | true =>
    rw [isAlpha_eq_or, isAlpha_eq_or, isLower_toLower h, h, Bool.or_true, Bool.true_or]
  | false => rw [toLower_of_not_isUpper h]

/-- Two characters that are equal but for the case of a letter of ASCII. -/
def SameLetter (c d : Char) : Prop := c.toLower = d.toLower

namespace SameLetter

variable {c d : Char}

theorem isAlpha_eq (h : SameLetter c d) : c.isAlpha = d.isAlpha := by
  rw [← isAlpha_toLower c, h, isAlpha_toLower]

/-- A character that is no letter has one case only. -/
theorem eq_of_not_isAlpha (h : SameLetter c d) (hc : c.isAlpha = false) : c = d := by
  have hlower : ∀ e : Char, e.isAlpha = false → e.toLower = e := by
    intro e he
    rw [isAlpha_eq_or, Bool.or_eq_false_iff] at he
    exact toLower_of_not_isUpper he.1
  rw [← hlower c hc, h, hlower d (h.isAlpha_eq ▸ hc)]

theorem alike (h : SameLetter c d) : Alike c d := by
  cases hc : c.isAlpha with
  | true => exact .letter hc (h.isAlpha_eq ▸ hc) h
  | false =>
    rw [h.eq_of_not_isAlpha hc]
    exact .refl d

theorem eq_of_not_isRecognised (h : SameLetter c d) (hc : Item.isRecognised c = false) :
    c = d := by
  apply h.eq_of_not_isAlpha
  rw [← Bool.not_eq_true]
  intro hletter
  rw [Item.isRecognised_of_startsWord (by simp [Item.startsWord, hletter])] at hc
  exact absurd hc (by decide)

end SameLetter

/-! ## Errors -/

/-- Errors that are alike up to the case of letters are equal: the only
character that one names has no case. -/
theorem Error.eq_of_sameLetter {a b : Error} (h : Error.Like SameLetter a b)
    (hunknown : ∀ c, a.fault = .unrecognizedCharacter c → Item.isRecognised c = false) :
    a = b := by
  rcases a with ⟨fault, position⟩
  rcases b with ⟨fault', position'⟩
  obtain ⟨hfault, rfl⟩ := h
  cases hfault with
  | @character c d hcd => rw [hcd.eq_of_not_isRecognised (hunknown c rfl)]
  | other _ => rfl

theorem Cursor.strict_outcomeAt_sameLetter {c d : Cursor} (h : Cursor.Like SameLetter c d)
    (n : Nat) :
    Paired Eq (Token.Like SameLetter) (c.outcomeAt n).strict (d.outcomeAt n).strict := by
  refine (strict_outcomeAt_like (fun _ _ => SameLetter.alike) h n).imp_error ?_
  intro error error' hstrict hlike
  exact Error.eq_of_sameLetter hlike fun _ => isRecognised_of_strict hstrict

/-! ## Runs -/

/-- Two texts of the same letters are both opened or both refused.  Their runs
give the same errors, and the same tokens but for the case of their lexemes.
So do their tokens as a whole. -/
theorem run_of_sameLetters {source source' : String}
    (h : List.Forall₂ SameLetter source.toList source'.toList) :
    ((∃ opened, Cursor.ofSource source = .ok opened) ↔
        ∃ opened, Cursor.ofSource source' = .ok opened) ∧
      (∀ opened opened', Cursor.ofSource source = .ok opened →
        Cursor.ofSource source' = .ok opened' → ∀ n,
          Paired Eq (Token.Like SameLetter) (opened.cursor.outcomeAt n)
            (opened'.cursor.outcomeAt n)) ∧
      Paired Eq (List.Forall₂ (Token.Like SameLetter)) (tokenize source) (tokenize source') := by
  have hR : ∀ c d, SameLetter c d → Alike c d := fun _ _ => SameLetter.alike
  have hlike := Cursor.start_like h
  refine ⟨ofSource_like (h.imp hR), ?_, ?_⟩
  · intro opened opened' hopened hopened' n
    obtain ⟨-, rfl⟩ := Cursor.ofSource_eq_ok_iff.1 hopened
    obtain ⟨-, rfl⟩ := Cursor.ofSource_eq_ok_iff.1 hopened'
    exact Cursor.outcomeAt_like hR hlike n
  · rw [tokenize_eq, tokenize_eq, all_isBlank_of_alike (h.imp hR)]
    split
    · exact .error rfl
    · exact Cursor.tokens_paired (Cursor.strict_outcomeAt_sameLetter hlike) fun n =>
        Outcome.isEnd_like (Cursor.outcomeAt_like hR hlike n)

/-- A keyword, a type with a question mark, a string and a comment. -/
def lowerSource : String := "while (int? x != 'ab') /// é"

def mixedCaseSource : String := "wHiLe (INT? X != 'aB') /// é"

theorem run_of_mixedCaseSource :
    List.Forall₂ SameLetter lowerSource.toList mixedCaseSource.toList ∧
      Cursor.ofSource lowerSource = .ok ⟨(), [.opened 28], Cursor.start lowerSource.toList⟩ ∧
      Cursor.ofSource mixedCaseSource =
        .ok ⟨(), [.opened 28], Cursor.start mixedCaseSource.toList⟩ ∧
      (∀ n, Paired Eq (Token.Like SameLetter) ((Cursor.start lowerSource.toList).outcomeAt n)
        ((Cursor.start mixedCaseSource.toList).outcomeAt n)) ∧
      Paired Eq (List.Forall₂ (Token.Like SameLetter)) (tokenize lowerSource)
        (tokenize mixedCaseSource) := by
  have hsame : List.Forall₂ SameLetter lowerSource.toList mixedCaseSource.toList := by
    have hmap : lowerSource.toList.map Char.toLower = mixedCaseSource.toList.map Char.toLower := by
      decide +kernel
    rw [← List.forall₂_eq_eq_eq, List.forall₂_map_left_iff, List.forall₂_map_right_iff] at hmap
    exact hmap
  have hopened : Cursor.ofSource lowerSource =
      .ok ⟨(), [.opened 28], Cursor.start lowerSource.toList⟩ :=
    Cursor.ofSource_eq_ok_iff.2 ⟨by decide, rfl⟩
  have hopened' : Cursor.ofSource mixedCaseSource =
      .ok ⟨(), [.opened 28], Cursor.start mixedCaseSource.toList⟩ :=
    Cursor.ofSource_eq_ok_iff.2 ⟨by decide, rfl⟩
  obtain ⟨-, hruns, htokens⟩ := run_of_sameLetters hsame
  exact ⟨hsame, hopened, hopened', hruns _ _ hopened hopened', htokens⟩

end SharpLexer
