import SharpLexer.Proofs.Alike

/-!
# Renaming unknown characters

A character that no token starts with is a stray one outside of strings and
comments, and an ordinary character in them.  It makes no difference which of
them it is: a map of characters that keeps the known ones, and lets none of
the others become known, can be applied to a text or to its tokens.  NUL is
such a character, although the cursor gives it for what stands past the end.

* `Renames` says which maps these are, and `Renames.alike` that the text that
  one makes is alike to the text it was made of.
* `Token.like_iff_rename` and `Error.rename_of_like` turn the relations of
  tokens and errors into equations.
* `run_of_renamed` is the run over a renamed text.
-/

namespace SharpLexer

/-- A map of characters that keeps those that are known, and leaves those that
are not unknown. -/
structure Renames (f : Char → Char) : Prop where
  known : ∀ c, Item.isRecognised c = true → f c = c
  unknown : ∀ c, Item.isRecognised c = false → Item.isRecognised (f c) = false

theorem Renames.alike {f : Char → Char} (hf : Renames f) (c d : Char) (h : f c = d) :
    Alike c d := by
  subst h
  cases hc : Item.isRecognised c with
  | true =>
    rw [hf.known c hc]
    exact .refl c
  | false => exact .stray hc (hf.unknown c hc)

/-! ## Tokens and errors -/

/-- A token with the characters of its lexeme renamed. -/
def Token.rename (f : Char → Char) (token : Token) : Token :=
  { token with lexeme := token.lexeme.map f }

/-- A fault with the unknown character renamed that it names. -/
def Fault.rename (f : Char → Char) : Fault → Fault
  | .unrecognizedCharacter c => .unrecognizedCharacter (f c)
  | fault => fault

/-- An error with its fault renamed. -/
def Error.rename (f : Char → Char) (error : Error) : Error :=
  { error with fault := error.fault.rename f }

variable {f : Char → Char}

theorem Token.like_iff_rename {a b : Token} :
    Token.Like (fun c d => f c = d) a b ↔ a.rename f = b := by
  constructor
  · intro h
    have hlexeme : a.lexeme.map f = b.lexeme := by
      rw [← String.toList_inj, String.toList_map]
      exact forall₂_iff_map_eq.1 h.lexeme
    rcases a with ⟨kind, lexeme, position, literal⟩
    rcases b with ⟨kind', lexeme', position', literal'⟩
    obtain ⟨rfl, rfl, rfl, -⟩ := h
    obtain rfl := hlexeme
    rfl
  · rintro rfl
    refine ⟨rfl, rfl, rfl, forall₂_iff_map_eq.2 ?_⟩
    rw [Token.rename, String.toList_map]

theorem Fault.rename_of_like {a b : Fault} (h : Fault.Like (fun c d => f c = d) a b) :
    a.rename f = b := by
  cases h with
  | character h => exact congrArg Fault.unrecognizedCharacter h
  | other h =>
    cases a with
    | unrecognizedCharacter c => exact absurd rfl (h c)
    | _ => rfl

theorem Error.rename_of_like {a b : Error} (h : Error.Like (fun c d => f c = d) a b) :
    a.rename f = b := by
  rw [Error.rename, Fault.rename_of_like h.fault, h.position]

/-! ## Runs -/

theorem forall₂_renamed (f : Char → Char) (source : String) :
    List.Forall₂ (fun c d => f c = d) source.toList (source.map f).toList := by
  rw [forall₂_iff_map_eq, String.toList_map]

/-- Outcomes that are alike through a map have one token renamed, or one
error. -/
theorem Outcome.map_rename_of_like {a b : Outcome}
    (h : Paired Eq (Token.Like fun c d => f c = d) a b) :
    b = Except.map (Token.rename f) a := by
  cases h with
  | ok h => exact congrArg Except.ok (Token.like_iff_rename.1 h).symm
  | error h => exact congrArg Except.error h.symm

/-- A renamed text is opened if and only if the text is.  Its run gives the
same errors, and the same tokens with their lexemes renamed.  So do its tokens
as a whole, where the error that names an unknown character names the one in
its place. -/
theorem run_of_renamed (hf : Renames f) (source : String) :
    ((∃ opened, Cursor.ofSource source = .ok opened) ↔
        ∃ renamed, Cursor.ofSource (source.map f) = .ok renamed) ∧
      (∀ opened renamed, Cursor.ofSource source = .ok opened →
        Cursor.ofSource (source.map f) = .ok renamed → ∀ n,
          renamed.cursor.outcomeAt n = (opened.cursor.outcomeAt n).map (Token.rename f)) ∧
      tokenize (source.map f) =
        ((tokenize source).map (List.map (Token.rename f))).mapError (Error.rename f) := by
  have hlike := forall₂_renamed f source
  refine ⟨ofSource_like (hlike.imp hf.alike), ?_, ?_⟩
  · intro opened renamed hopened hrenamed n
    obtain ⟨-, rfl⟩ := Cursor.ofSource_eq_ok_iff.1 hopened
    obtain ⟨-, rfl⟩ := Cursor.ofSource_eq_ok_iff.1 hrenamed
    exact Outcome.map_rename_of_like
      (Cursor.outcomeAt_like hf.alike (Cursor.start_like hlike) n)
  · have hlists : ∀ front back,
        List.Forall₂ (Token.Like fun c d => f c = d) front back →
          front.map (Token.rename f) = back := by
      intro front back h
      exact forall₂_iff_map_eq.1 (h.imp fun _ _ => Token.like_iff_rename.1)
    have hpaired := (tokenize_like hf.alike hlike).imp (fun _ _ => Error.rename_of_like) hlists
    exact (paired_map_iff.1 hpaired).symm

/-- NUL in the place of every unknown character. -/
def toNul (c : Char) : Char := if Item.isRecognised c then c else '\x00'

theorem renames_toNul : Renames toNul where
  known _ hc := if_pos hc
  unknown c hc := by
    have hnul : Item.isRecognised '\x00' = false := by decide +kernel
    simp [toNul, hc, hnul]

/-- Unknown characters between tokens, in a string, and in comments. -/
def foreignSource : String := "é'ü'//ö\n/*ä*/x///ß"

def nulSource : String := "\x00'\x00'//\x00\n/*\x00*/x///\x00"

theorem run_of_nulSource :
    Renames toNul ∧ foreignSource.map toNul = nulSource ∧
      Cursor.ofSource foreignSource = .ok ⟨(), [.opened 18], Cursor.start foreignSource.toList⟩ ∧
      (∀ n, (Cursor.start nulSource.toList).outcomeAt n =
        ((Cursor.start foreignSource.toList).outcomeAt n).map (Token.rename toNul)) ∧
      tokenize foreignSource = .error ⟨.unrecognizedCharacter 'é', ⟨1, 1⟩⟩ ∧
      tokenize nulSource = .error ⟨.unrecognizedCharacter '\x00', ⟨1, 1⟩⟩ := by
  have hmap : foreignSource.map toNul = nulSource := by decide +kernel
  have hopened : Cursor.ofSource foreignSource =
      .ok ⟨(), [.opened 18], Cursor.start foreignSource.toList⟩ :=
    Cursor.ofSource_eq_ok_iff.2 ⟨by decide, rfl⟩
  have hrenamed : Cursor.ofSource nulSource =
      .ok ⟨(), [.opened 18], Cursor.start nulSource.toList⟩ :=
    Cursor.ofSource_eq_ok_iff.2 ⟨by decide, rfl⟩
  have hforeign : tokenize foreignSource = .error ⟨.unrecognizedCharacter 'é', ⟨1, 1⟩⟩ := by
    decide +kernel
  obtain ⟨-, hruns, htokens⟩ := run_of_renamed renames_toNul foreignSource
  rw [hmap, hforeign] at htokens
  rw [hmap] at hruns
  exact ⟨renames_toNul, hmap, hopened, hruns _ _ hopened hrenamed, hforeign, htokens⟩

end SharpLexer
