import Mathlib.Data.List.Forall2
import SharpLexer.Proofs.Tokenize

/-!
# Texts that read alike

A reader makes no difference between some characters: the two cases of a
letter are one to it, and so are all characters that it does not know.  Two
texts that differ in such characters only are read alike, in the same pieces
and with the same meaning.

There are five groups.

* Characters.  `Alike` says which characters are one to a reader.  Most
  characters that it knows are alike to nothing else, and `Alike.eq_of_isFixed`
  says so.
* Texts.  Two texts are alike by `List.Forall₂ Alike`.  What is found in one
  of them by fixed characters is found in the other (`infix_of_alike`), and
  both lead to the same place (`Position.advance_of_alike`).
* Gaps and items.  `Trivia.exists_alike_lastGap` and `Item.exists_like` find
  the pieces of the one text in the other, and `Item.Like.outcome` says that
  they mean the same.
* Runs.  `Cursor.Like` relates two cursors with texts ahead that are alike.
  `Cursor.like_next` is one reading of both, and `Cursor.outcomeAt_like` any
  number of them.
* Whole texts.  `ofSource_like` and `tokenize_like` say that alike texts are
  opened or refused alike, and have the same tokens but for their lexemes.

The characters of what is read may be related more closely than by `Alike`,
by a map for example.  So the relations of items, outcomes and cursors take a
relation of characters `R` that is part of it.
-/

namespace SharpLexer

open Trivia (ClosedGap LastGap gapText)

/-! ## Characters -/

/-- Two characters that are one to a reader. -/
inductive Alike : Char → Char → Prop where
  | refl (c : Char) : Alike c c
  /-- Two letters that differ in their case at most. -/
  | letter {c d : Char} (hc : c.isAlpha = true) (hd : d.isAlpha = true)
      (hcase : c.toLower = d.toLower) : Alike c d
  /-- Two characters that it does not know. -/
  | stray {c d : Char} (hc : Item.isRecognised c = false) (hd : Item.isRecognised d = false) :
      Alike c d

/-- A character that is alike to no other: it is known, and no letter. -/
def Item.isFixed (c : Char) : Bool := isRecognised c && !c.isAlpha

namespace Alike

variable {c d : Char}

theorem symm (h : Alike c d) : Alike d c := by
  cases h with
  | refl => exact .refl c
  | letter hc hd hcase => exact .letter hd hc hcase.symm
  | stray hc hd => exact .stray hd hc

theorem eq_of_isFixed (h : Alike c d) (hc : Item.isFixed c = true) : d = c := by
  rw [Item.isFixed, Bool.and_eq_true, Bool.not_eq_true'] at hc
  cases h with
  | refl => rfl
  | letter hletter _ _ =>
    rw [hletter] at hc
    exact absurd hc.2 (by decide)
  | stray hstray _ =>
    rw [hstray] at hc
    exact absurd hc.1 (by decide)

theorem ne_of_isFixed {e : Char} (he : Item.isFixed e = true) (h : Alike c d) (hne : c ≠ e) :
    d ≠ e := by
  rintro rfl
  exact hne (h.symm.eq_of_isFixed he)

theorem toLower_eq (h : Alike c d) (hc : Item.isRecognised c = true) : c.toLower = d.toLower := by
  cases h with
  | refl => rfl
  | letter _ _ hcase => exact hcase
  | stray hstray _ =>
    rw [hstray] at hc
    exact absurd hc (by decide)

theorem isRecognised_eq (h : Alike c d) : Item.isRecognised c = Item.isRecognised d := by
  cases h with
  | refl => rfl
  | letter hc hd _ => simp [Item.isRecognised, Item.startsWord, hc, hd]
  | stray hc hd => rw [hc, hd]

/-- A class of fixed characters holds both or neither. -/
theorem class_eq_of_isFixed {p : Char → Bool} (hp : ∀ c, p c = true → Item.isFixed c = true)
    (h : Alike c d) : p c = p d := by
  cases hc : p c with
  | true =>
    rw [h.eq_of_isFixed (hp c hc)]
    exact hc.symm
  | false =>
    cases hd : p d with
    | false => rfl
    | true =>
      rw [h.symm.eq_of_isFixed (hp d hd), hd] at hc
      exact absurd hc (by decide)

/-- A class that is all letters and otherwise known holds both or neither. -/
theorem class_eq_of_isAlpha {p : Char → Bool} (hletter : ∀ c, c.isAlpha = true → p c = true)
    (hp : ∀ c, p c = true → Item.isRecognised c = true) (h : Alike c d) : p c = p d := by
  cases h with
  | refl => rfl
  | letter hc hd _ => rw [hletter c hc, hletter d hd]
  | stray hc hd =>
    have hnot : ∀ e, Item.isRecognised e = false → p e = false := by
      intro e he
      rw [← Bool.not_eq_true]
      intro hpe
      rw [hp e hpe] at he
      exact absurd he (by decide)
    rw [hnot c hc, hnot d hd]

end Alike

namespace Item

theorem isFixed_of_isBlank {c : Char} (h : Text.isBlank c = true) : isFixed c = true := by
  simp only [Text.isBlank, Bool.or_eq_true, decide_eq_true_eq] at h
  rcases h with ((((rfl | rfl) | rfl) | rfl) | rfl) | rfl <;> decide +kernel

theorem isFixed_of_isQuote {c : Char} (h : isQuote c = true) : isFixed c = true := by
  rcases eq_of_isQuote h with rfl | rfl <;> decide +kernel

theorem isFixed_of_isDigit {c : Char} (h : c.isDigit = true) : isFixed c = true := by
  have hword := startsWord_eq_false_of_isDigit h
  rw [startsWord, Bool.or_eq_false_iff] at hword
  simp [isFixed, isRecognised, h, hword.1]

theorem isFixed_of_continues {c : Char} (h : Number.continues c = true) : isFixed c = true := by
  simp only [Number.continues, Bool.or_eq_true, decide_eq_true_eq] at h
  rcases h with (hdigit | rfl) | rfl
  · exact isFixed_of_isDigit hdigit
  · decide +kernel
  · decide +kernel

theorem isFixed_symbol : ∀ op ∈ Operator.table, op.symbol.all isFixed = true := by
  decide +kernel

theorem isRecognised_of_continuesWord {c : Char} (h : continuesWord c = true) :
    isRecognised c = true := by
  simp only [continuesWord, Char.isAlphanum, Bool.or_eq_true] at h
  rcases h with (hletter | hdigit) | hline
  · simp [isRecognised, startsWord, hletter]
  · simp [isRecognised, hdigit]
  · simp [isRecognised, startsWord, hline]

theorem isRecognised_of_startsWord {c : Char} (h : startsWord c = true) :
    isRecognised c = true := by
  simp [isRecognised, h]

theorem startsWord_of_alike {c d : Char} (h : Alike c d) : startsWord c = startsWord d := by
  apply Alike.class_eq_of_isAlpha _ _ h
  · intro e he
    simp [startsWord, he]
  · exact fun _ => isRecognised_of_startsWord

theorem continuesWord_of_alike {c d : Char} (h : Alike c d) :
    continuesWord c = continuesWord d := by
  apply Alike.class_eq_of_isAlpha _ _ h
  · intro e he
    simp [continuesWord, Char.isAlphanum, he]
  · exact fun _ => isRecognised_of_continuesWord

end Item

/-! ## Texts -/

section Append

variable {α β : Type} {R : α → β → Prop}

/-- What is related to two lists in a row is two lists in a row. -/
theorem exists_of_forall₂_append {front back : List α} {list : List β}
    (h : List.Forall₂ R (front ++ back) list) :
    ∃ front' back', list = front' ++ back' ∧ List.Forall₂ R front front' ∧
      List.Forall₂ R back back' := by
  induction front generalizing list with
  | nil => exact ⟨[], list, rfl, .nil, h⟩
  | cons x front ih =>
    rw [List.cons_append, List.forall₂_cons_left_iff] at h
    obtain ⟨y, rest, hxy, hrest, rfl⟩ := h
    obtain ⟨front', back', rfl, hfront, hback⟩ := ih hrest
    exact ⟨y :: front', back', rfl, .cons hxy hfront, hback⟩

end Append

section Texts

variable {R : Char → Char → Prop} {text text' : List Char}

theorem forall₂_alike_symm (h : List.Forall₂ Alike text text') :
    List.Forall₂ Alike text' text :=
  (h.imp fun _ _ hcd => hcd.symm).flip

theorem eq_of_forall₂_alike (hfixed : text.all Item.isFixed = true)
    (h : List.Forall₂ Alike text text') : text' = text := by
  induction h with
  | nil => rfl
  | cons hcd _ ih =>
    rw [List.all_cons, Bool.and_eq_true] at hfixed
    rw [hcd.eq_of_isFixed hfixed.1, ih hfixed.2]

/-- Fixed characters in front of a text are in front of what is related to
it. -/
theorem exists_of_fixed_append (hR : ∀ c d, R c d → Alike c d) {front back : List Char}
    (hfixed : front.all Item.isFixed = true) (h : List.Forall₂ R (front ++ back) text) :
    ∃ back', text = front ++ back' ∧ List.Forall₂ R back back' := by
  obtain ⟨front', back', rfl, hfront, hback⟩ := exists_of_forall₂_append h
  rw [eq_of_forall₂_alike hfixed (hfront.imp hR)]
  exact ⟨back', rfl, hback⟩

/-- The same for fixed characters behind a text. -/
theorem exists_of_append_fixed (hR : ∀ c d, R c d → Alike c d) {front back : List Char}
    (hfixed : back.all Item.isFixed = true) (h : List.Forall₂ R (front ++ back) text) :
    ∃ front', text = front' ++ back ∧ List.Forall₂ R front front' := by
  obtain ⟨front', back', rfl, hfront, hback⟩ := exists_of_forall₂_append h
  rw [eq_of_forall₂_alike hfixed (hback.imp hR)]
  exact ⟨front', rfl, hfront⟩

/-- A symbol of fixed characters stands in both texts or in neither. -/
theorem prefix_of_alike {symbol : List Char} (hfixed : symbol.all Item.isFixed = true)
    (h : List.Forall₂ Alike text text') (hfits : symbol <+: text) : symbol <+: text' := by
  obtain ⟨back, rfl⟩ := hfits
  obtain ⟨back', rfl, -⟩ := exists_of_fixed_append (fun _ _ => id) hfixed h
  exact List.prefix_append _ _

theorem infix_of_alike {symbol : List Char} (hfixed : symbol.all Item.isFixed = true)
    (h : List.Forall₂ Alike text text') (hinside : symbol <:+: text) : symbol <:+: text' := by
  obtain ⟨front, back, rfl⟩ := hinside
  rw [List.append_assoc] at h
  obtain ⟨front', rest', rfl, -, hrest⟩ := exists_of_forall₂_append h
  have hfits := prefix_of_alike hfixed hrest (List.prefix_append _ _)
  exact hfits.isInfix.trans (List.suffix_append _ _).isInfix

theorem mem_of_alike {c : Char} (hfixed : Item.isFixed c = true)
    (h : List.Forall₂ Alike text text') (hmem : c ∈ text) : c ∈ text' := by
  have hinside : [c] <:+: text := (List.singleton_infix_iff c text).2 hmem
  have hsymbol : [c].all Item.isFixed = true := by simp [hfixed]
  exact (List.singleton_infix_iff c text').1 (infix_of_alike hsymbol h hinside)

theorem not_infix_of_alike {symbol : List Char} (hfixed : symbol.all Item.isFixed = true)
    (h : List.Forall₂ Alike text text') (hnot : ¬ symbol <:+: text) : ¬ symbol <:+: text' :=
  fun hinside => hnot (infix_of_alike hfixed (forall₂_alike_symm h) hinside)

theorem not_mem_of_alike {c : Char} (hfixed : Item.isFixed c = true)
    (h : List.Forall₂ Alike text text') (hnot : c ∉ text) : c ∉ text' :=
  fun hmem => hnot (mem_of_alike hfixed (forall₂_alike_symm h) hmem)

theorem getLast?_of_alike {c : Char} (hfixed : Item.isFixed c = true)
    (h : List.Forall₂ Alike text text') (hlast : text.getLast? = some c) :
    text'.getLast? = some c := by
  obtain ⟨front, rfl⟩ := List.getLast?_eq_some_iff.1 hlast
  obtain ⟨front', rfl, -⟩ := exists_of_append_fixed (fun _ _ => id) (by simp [hfixed]) h
  exact List.getLast?_concat

/-- A class that makes no difference between alike characters makes none
between alike texts. -/
theorem all_eq_of_alike {p : Char → Bool} (hp : ∀ c d, Alike c d → p c = p d)
    (h : List.Forall₂ Alike text text') : text.all p = text'.all p := by
  induction h with
  | nil => rfl
  | cons hcd _ ih => rw [List.all_cons, List.all_cons, hp _ _ hcd, ih]

theorem all_of_alike {p : Char → Bool} (hp : ∀ c d, Alike c d → p c = p d)
    (h : List.Forall₂ Alike text text') (hall : ∀ c ∈ text, p c = true) :
    ∀ d ∈ text', p d = true := by
  rw [← List.all_eq_true] at hall ⊢
  rw [← all_eq_of_alike hp h]
  exact hall

/-- What is asked of the next character is the same of alike texts. -/
theorem head?_of_alike {P : Char → Prop} (hP : ∀ c d, Alike c d → P c → P d)
    (h : List.Forall₂ Alike text text') (hhead : ∀ c ∈ text.head?, P c) :
    ∀ d ∈ text'.head?, P d := by
  cases h with
  | nil => exact hhead
  | cons hcd _ =>
    intro e he
    obtain rfl := Option.some.inj he
    exact hP _ _ hcd (hhead _ rfl)

theorem Position.advance_of_alike (h : List.Forall₂ Alike text text') (p : Position) :
    p.advance text' = p.advance text := by
  induction h generalizing p with
  | nil => rfl
  | @cons c d text text' hcd _ ih =>
    rw [Position.advance_cons, Position.advance_cons, ih]
    by_cases hc : c = '\n'
    · rw [hcd.eq_of_isFixed (by rw [hc]; decide +kernel)]
    · have hd : d ≠ '\n' := hcd.ne_of_isFixed (by decide +kernel) hc
      rw [Position.step_of_ne hc, Position.step_of_ne hd]

end Texts

/-! ## Gaps -/

namespace Trivia

/-- What is alike to a piece is a piece that has its end where the other does. -/
theorem exists_alike {piece : Trivia} (hshape : piece.WellFormed) {text' : List Char}
    (h : List.Forall₂ Alike piece.text text') :
    ∃ piece' : Trivia, piece'.WellFormed ∧ piece'.isClosed = piece.isClosed ∧
      piece'.text = text' := by
  cases piece with
  | blank c =>
    have hblank : Text.isBlank c = true := hshape
    have hfixed : [c].all Item.isFixed = true := by simp [Item.isFixed_of_isBlank hblank]
    exact ⟨blank c, hshape, rfl, (eq_of_forall₂_alike hfixed h).symm⟩
  | line body newline =>
    obtain ⟨hline, hthird⟩ := hshape
    have hsplit : List.Forall₂ Alike
        (['/', '/'] ++ (body ++ if newline then ['\n'] else [])) text' := h
    obtain ⟨rest, rfl, hrest⟩ := exists_of_fixed_append (fun _ _ => id) (by decide +kernel) hsplit
    obtain ⟨body', rfl, hbody⟩ :=
      exists_of_append_fixed (fun _ _ => id) (by cases newline <;> decide +kernel) hrest
    refine ⟨line body' newline, ⟨?_, ?_⟩, rfl, rfl⟩
    · exact not_mem_of_alike (by decide +kernel) hbody hline
    · have hslash : ∀ c ∈ body.head?, c ≠ '/' := by
        intro c hc heq
        rw [heq] at hc
        exact hthird hc
      intro hhead
      exact head?_of_alike (fun _ _ hcd => hcd.ne_of_isFixed (by decide +kernel)) hbody hslash
        '/' hhead rfl
  | block body =>
    have hclose : ¬ ['*', '/'] <:+: body := hshape
    have hsplit : List.Forall₂ Alike (['/', '*'] ++ (body ++ ['*', '/'])) text' := h
    obtain ⟨rest, rfl, hrest⟩ := exists_of_fixed_append (fun _ _ => id) (by decide +kernel) hsplit
    obtain ⟨body', rfl, hbody⟩ := exists_of_append_fixed (fun _ _ => id) (by decide +kernel) hrest
    exact ⟨block body', not_infix_of_alike (by decide +kernel) hbody hclose, rfl, rfl⟩

theorem exists_alike_closedGap {gap : List Trivia} (hgap : ClosedGap gap) {text' : List Char}
    (h : List.Forall₂ Alike (gapText gap) text') :
    ∃ gap', ClosedGap gap' ∧ gapText gap' = text' := by
  induction gap generalizing text' with
  | nil =>
    obtain rfl := List.forall₂_nil_left_iff.1 h
    exact ⟨[], closedGap_nil, rfl⟩
  | cons piece gap ih =>
    obtain ⟨hshape, hclosed, hrest⟩ := closedGap_cons.1 hgap
    obtain ⟨front, back, rfl, hfront, hback⟩ := exists_of_forall₂_append h
    obtain ⟨piece', hshape', hclosed', rfl⟩ := exists_alike hshape hfront
    obtain ⟨gap', hgap', rfl⟩ := ih hrest hback
    exact ⟨piece' :: gap', closedGap_cons.2 ⟨hshape', hclosed'.trans hclosed, hgap'⟩, rfl⟩

/-- What is alike to a gap at the end of a text is one as well. -/
theorem exists_alike_lastGap {gap : List Trivia} (hgap : LastGap gap) {text' : List Char}
    (h : List.Forall₂ Alike (gapText gap) text') :
    ∃ gap', LastGap gap' ∧ gapText gap' = text' := by
  rcases hgap with hgap | ⟨front, body, rfl, hfront, hbody⟩
  · obtain ⟨gap', hgap', htext⟩ := exists_alike_closedGap hgap h
    exact ⟨gap', Or.inl hgap', htext⟩
  · rw [gapText_append] at h
    obtain ⟨before, last, rfl, hbefore, hlast⟩ := exists_of_forall₂_append h
    obtain ⟨front', hfront', rfl⟩ := exists_alike_closedGap hfront hbefore
    rw [gapText_cons, gapText_nil, List.append_nil] at hlast
    obtain ⟨piece, hshape, hopen, rfl⟩ := exists_alike hbody hlast
    obtain ⟨body', rfl⟩ := exists_line_of_not_isClosed hopen
    refine ⟨front' ++ [line body' false], Or.inr ⟨front', body', rfl, hfront', hshape⟩, ?_⟩
    rw [gapText_append, gapText_cons, gapText_nil, List.append_nil]

end Trivia

/-! ## Items -/

variable {R : Char → Char → Prop}

namespace Item

/-- Two items of one class whose characters `R` relates. -/
inductive Like (R : Char → Char → Prop) : Item → Item → Prop where
  | operator {op : Operator} (h : List.Forall₂ R op.symbol op.symbol) :
      Like R (operator op) (operator op)
  | word {text text' : List Char} (hknown : ∀ c ∈ text, isRecognised c = true)
      (h : List.Forall₂ R text text') : Like R (word text) (word text')
  | number {literal : List Char} (h : List.Forall₂ R literal literal) :
      Like R (number literal) (number literal)
  | quoted {quote : Char} {body body' : List Char} (h : List.Forall₂ R body body') :
      Like R (quoted quote body) (quoted quote body')
  | doc {text text' : List Char} (h : List.Forall₂ R text text') : Like R (doc text) (doc text')
  | stray {c d : Char} (h : R c d) : Like R (stray c) (stray d)
  | openQuoted {quote : Char} {body body' : List Char} :
      Like R (openQuoted quote body) (openQuoted quote body')
  | openBlock {body body' : List Char} : Like R (openBlock body) (openBlock body')

/-- What is related to an item is an item of the same class. -/
theorem exists_like (hR : ∀ c d, R c d → Alike c d) {item : Item} (hshape : item.WellFormed)
    {text' : List Char} (h : List.Forall₂ R item.text text') :
    ∃ item' : Item, item'.WellFormed ∧ item'.text = text' ∧ Like R item item' := by
  have halike := h.imp hR
  cases hshape with
  | @operator op hop =>
    obtain rfl := eq_of_forall₂_alike (isFixed_symbol op hop) halike
    exact ⟨operator op, .operator hop, rfl, .operator h⟩
  | @word c letters hfirst hletters =>
    obtain ⟨d, letters', hcd, hrest, rfl⟩ := List.forall₂_cons_left_iff.1 h
    have hfirst' := (startsWord_of_alike (hR c d hcd)).symm.trans hfirst
    have hletters' := all_of_alike (fun _ _ => continuesWord_of_alike) (hrest.imp hR) hletters
    have hknown : ∀ e ∈ c :: letters, isRecognised e = true :=
      List.forall_mem_cons.2 ⟨isRecognised_of_startsWord hfirst,
        fun e he => isRecognised_of_continuesWord (hletters e he)⟩
    exact ⟨word (d :: letters'), .word hfirst' hletters', rfl, .word hknown h⟩
  | @question c letters hfirst hletters =>
    obtain ⟨d, rest, hcd, hrest, rfl⟩ := List.forall₂_cons_left_iff.1 h
    obtain ⟨letters', rfl, hinside⟩ := exists_of_append_fixed hR (by decide +kernel) hrest
    have hfirst' := (startsWord_of_alike (hR c d hcd)).symm.trans hfirst
    have hletters' := all_of_alike (fun _ _ => continuesWord_of_alike) (hinside.imp hR) hletters
    have hquestion : isRecognised '?' = true := by decide +kernel
    have hknown : ∀ e ∈ c :: (letters ++ ['?']), isRecognised e = true := by
      refine List.forall_mem_cons.2 ⟨isRecognised_of_startsWord hfirst,
        List.forall_mem_append.2 ⟨?_, by simpa using hquestion⟩⟩
      exact fun e he => isRecognised_of_continuesWord (hletters e he)
    exact ⟨word (d :: (letters' ++ ['?'])), .question hfirst' hletters', rfl, .word hknown h⟩
  | @number c digits hfirst hdigits =>
    have hfixed : (c :: digits).all isFixed = true := by
      rw [List.all_eq_true, List.forall_mem_cons]
      exact ⟨isFixed_of_isDigit hfirst, fun d hd => isFixed_of_continues (hdigits d hd)⟩
    obtain rfl := eq_of_forall₂_alike hfixed halike
    exact ⟨number (c :: digits), .number hfirst hdigits, rfl, .number h⟩
  | @quoted quote body hquote hbody =>
    have hfixed := isFixed_of_isQuote hquote
    have hquotes : [quote].all isFixed = true := by simp [hfixed]
    have hsplit : List.Forall₂ R ([quote] ++ (body ++ [quote])) text' := h
    obtain ⟨rest, rfl, hrest⟩ := exists_of_fixed_append hR hquotes hsplit
    obtain ⟨body', rfl, hinside⟩ := exists_of_append_fixed hR hquotes hrest
    have hbody' := not_mem_of_alike hfixed (hinside.imp hR) hbody
    exact ⟨quoted quote body', .quoted hquote hbody', rfl, .quoted hinside⟩
  | @doc body hbody =>
    have hsplit : List.Forall₂ R (['/', '/', '/'] ++ body) text' := h
    obtain ⟨body', rfl, hrest⟩ := exists_of_fixed_append hR (by decide +kernel) hsplit
    have hbody' := not_mem_of_alike (by decide +kernel) (hrest.imp hR) hbody
    exact ⟨doc ('/' :: '/' :: '/' :: body'), .doc hbody', rfl, .doc h⟩
  | @stray c hstray =>
    obtain ⟨d, rest, hcd, hrest, rfl⟩ := List.forall₂_cons_left_iff.1 h
    obtain rfl := List.forall₂_nil_left_iff.1 hrest
    exact ⟨stray d, .stray ((hR c d hcd).isRecognised_eq.symm.trans hstray), rfl, .stray hcd⟩
  | @openQuoted quote body hquote hbody =>
    have hfixed := isFixed_of_isQuote hquote
    have hsplit : List.Forall₂ R ([quote] ++ body) text' := h
    obtain ⟨body', rfl, hrest⟩ := exists_of_fixed_append hR (by simp [hfixed]) hsplit
    have hbody' := not_mem_of_alike hfixed (hrest.imp hR) hbody
    exact ⟨openQuoted quote body', .openQuoted hquote hbody', rfl, .openQuoted⟩
  | @openBlock body hbody =>
    have hsplit : List.Forall₂ R (['/', '*'] ++ body) text' := h
    obtain ⟨body', rfl, hrest⟩ := exists_of_fixed_append hR (by decide +kernel) hsplit
    have hbody' := not_infix_of_alike (by decide +kernel) (hrest.imp hR) hbody
    exact ⟨openBlock body', .openBlock hbody', rfl, .openBlock⟩

theorem Like.isOpen_eq {item item' : Item} (h : Like R item item') :
    item'.isOpen = item.isOpen := by
  cases h <;> rfl

/-- Texts that are alike end items that are alike, or go on with both. -/
theorem Like.stops (hR : ∀ c d, R c d → Alike c d) {item item' : Item} (h : Like R item item')
    {tail tail' : List Char} (htail : List.Forall₂ Alike tail tail') (hstops : item.Stops tail) :
    item'.Stops tail' := by
  cases h with
  | @operator op _ =>
    have hsame : List.Forall₂ Alike op.symbol op.symbol :=
      List.forall₂_same.2 fun c _ => Alike.refl c
    have hback : List.Forall₂ Alike (op.symbol ++ tail') (op.symbol ++ tail) :=
      List.rel_append hsame (forall₂_alike_symm htail)
    obtain ⟨hlongest, hline, hblock⟩ := hstops
    refine ⟨?_, ?_, ?_⟩
    · intro other hother hfits
      exact hlongest other hother (prefix_of_alike (isFixed_symbol other hother) hback hfits)
    · intro hfits
      exact hline (prefix_of_alike (by decide +kernel) hback hfits)
    · intro hfits
      exact hblock (prefix_of_alike (by decide +kernel) hback hfits)
  | word _ h =>
    rcases hstops with hmark | hstop
    · exact Or.inl (mem_of_alike (by decide +kernel) (h.imp hR) hmark)
    · refine Or.inr (head?_of_alike ?_ htail hstop)
      rintro c d hcd ⟨hletter, hmark⟩
      exact ⟨(continuesWord_of_alike hcd).symm.trans hletter,
        hcd.ne_of_isFixed (by decide +kernel) hmark⟩
  | number _ =>
    refine head?_of_alike ?_ htail hstops
    intro c d hcd hdigit
    exact (hcd.class_eq_of_isFixed fun _ => isFixed_of_continues).symm.trans hdigit
  | quoted _ | stray _ => trivial
  | doc _ =>
    refine head?_of_alike ?_ htail hstops
    rintro c d hcd rfl
    exact hcd.eq_of_isFixed (by decide +kernel)
  | openQuoted | openBlock =>
    obtain rfl : tail = [] := hstops
    exact List.forall₂_nil_left_iff.1 htail

end Item

/-! ## What they mean -/

/-- Two tokens that differ in the characters of their lexemes only, which `R`
relates. -/
structure Token.Like (R : Char → Char → Prop) (a b : Token) : Prop where
  kind : a.kind = b.kind
  position : a.position = b.position
  literal : a.literal? = b.literal?
  lexeme : List.Forall₂ R a.lexeme.toList b.lexeme.toList

/-- Two faults that differ in the unknown character that they name only. -/
inductive Fault.Like (R : Char → Char → Prop) : Fault → Fault → Prop where
  | character {c d : Char} (h : R c d) :
      Like R (.unrecognizedCharacter c) (.unrecognizedCharacter d)
  | other {fault : Fault} (h : ∀ c, fault ≠ .unrecognizedCharacter c) : Like R fault fault

/-- Two errors at one place, with faults that are alike. -/
structure Error.Like (R : Char → Char → Prop) (a b : Error) : Prop where
  fault : Fault.Like R a.fault b.fault
  position : a.position = b.position

theorem Token.like_plain {text text' : List Char} (h : List.Forall₂ R text text') (kind : Kind)
    (p : Position) : Token.Like R (.plain kind text p) (.plain kind text' p) :=
  ⟨rfl, rfl, rfl, by simpa using h⟩

/-- The case of its letters does not change what a word means. -/
theorem Word.kind_of_alike {text text' : List Char}
    (hknown : ∀ c ∈ text, Item.isRecognised c = true) (h : List.Forall₂ Alike text text') :
    Word.kind (String.ofList text') = Word.kind (String.ofList text) := by
  have hlower : text'.map Char.toLower = text.map Char.toLower := by
    induction h with
    | nil => rfl
    | cons hcd _ ih =>
      rw [List.forall_mem_cons] at hknown
      rw [List.map_cons, List.map_cons, hcd.toLower_eq hknown.1, ih hknown.2]
  simp only [Word.kind, Word.lookup?, Word.isReserved, Word.isType, Word.fold,
    String.toList_ofList, hlower]

/-- A carriage return at the end of a line is dropped from both or neither. -/
theorem Text.dropReturn_like (hR : ∀ c d, R c d → Alike c d) {text text' : List Char}
    (h : List.Forall₂ R text text') :
    List.Forall₂ R (dropReturn text) (dropReturn text') := by
  by_cases hlast : text.getLast? = some '\r'
  · obtain ⟨front, rfl⟩ := List.getLast?_eq_some_iff.1 hlast
    obtain ⟨front', rfl, hfront⟩ := exists_of_append_fixed hR (by decide +kernel) h
    rw [dropReturn_concat, dropReturn_concat]
    exact hfront
  · have hlast' : text'.getLast? ≠ some '\r' := by
      intro hreturn
      have hback := forall₂_alike_symm (h.imp hR)
      exact hlast (getLast?_of_alike (by decide +kernel) hback hreturn)
    rw [dropReturn_of_getLast? hlast, dropReturn_of_getLast? hlast']
    exact h

namespace Item

/-- Items that are alike mean the same. -/
theorem Like.outcome (hR : ∀ c d, R c d → Alike c d) {item item' : Item} (h : Like R item item')
    (p : Position) : Paired Eq (Token.Like R) (item.outcome p) (item'.outcome p) := by
  cases h with
  | @operator op h => exact .ok (Token.like_plain h op.kind p)
  | @word text text' hknown h =>
    rw [outcome_word, outcome_word, Word.kind_of_alike hknown (h.imp hR)]
    exact .ok (Token.like_plain h _ p)
  | @number literal h =>
    simp only [Item.outcome]
    split
    · exact .ok ⟨rfl, rfl, rfl, by simpa [Token.number] using h⟩
    · exact .error rfl
  | quoted h => exact .ok (Token.like_plain h .stringLiteral p)
  | doc h => exact .ok (Token.like_plain (Text.dropReturn_like hR h) .docComment p)
  | stray h => exact .ok (Token.like_plain (.cons h .nil) .stray p)
  | openQuoted | openBlock => exact .error rfl

end Item

/-! ## Runs -/

namespace Cursor

/-- Two cursors at one place with texts ahead that `R` relates. -/
inductive Like (R : Char → Char → Prop) : Cursor → Cursor → Prop where
  | within {current current' : Char} {rest rest' : List Char} (h : List.Forall₂ R rest rest')
      (p : Position) : Like R (within current rest p) (within current' rest' p)
  | closing (p : Position) : Like R (closing p) (closing p)
  | ended (p : Position) : Like R (ended p) (ended p)

variable {c d : Cursor}

theorem like_after {item item' : Item}
    (hitem : Item.Like R item item') (htext : List.Forall₂ Alike item.text item'.text)
    {tail tail' : List Char} (htail : List.Forall₂ R tail tail') (p : Position) :
    Like R (after p item tail) (after p item' tail') := by
  simp only [after, hitem.isOpen_eq, Position.advance_of_alike htext]
  split
  · exact .closing _
  · exact .within htail _

/-- One reading gives outcomes that are alike, and leaves the cursors alike. -/
theorem like_next (hR : ∀ c d, R c d → Alike c d) (h : Like R c d) :
    Paired Eq (Token.Like R) c.next.value d.next.value ∧ Like R c.next.cursor d.next.cursor := by
  have hmark : ∀ p, Token.Like R (.eof p) (.eof p) := Token.like_plain .nil .eof
  cases h with
  | @within current current' rest rest' h p =>
    rcases next_cases (within current rest p) with
      ⟨gap, hgap, hunread, hnext⟩ | ⟨gap, item, tail, hgap, hshape, hstops, hunread, hnext⟩
    · obtain rfl : rest = gapText gap := hunread
      have halike := h.imp hR
      obtain ⟨gap', hgap', rfl⟩ := Trivia.exists_alike_lastGap hgap halike
      rw [hnext, next_within, read_lastGap hgap', Position.advance_of_alike halike]
      exact ⟨.ok (hmark _), .ended _⟩
    · obtain rfl : rest = gapText gap ++ (item.text ++ tail) := hunread
      obtain ⟨before, behind, rfl, hbefore, hbehind⟩ := exists_of_forall₂_append h
      obtain ⟨spelling, tail', rfl, hspelling, htail⟩ := exists_of_forall₂_append hbehind
      obtain ⟨gap', hgap', rfl⟩ := Trivia.exists_alike_closedGap hgap (hbefore.imp hR)
      obtain ⟨item', hshape', rfl, hitem⟩ := Item.exists_like hR hshape hspelling
      have hstops' := hitem.stops hR (htail.imp hR) hstops
      rw [hnext, next_within, read_item hgap' hshape' hstops',
        Position.advance_of_alike (hbefore.imp hR)]
      exact ⟨hitem.outcome hR _, like_after hitem (hspelling.imp hR) htail _⟩
  | closing p => exact ⟨.ok (hmark p), .ended p⟩
  | ended p => exact ⟨.ok (hmark p), .ended p⟩

theorem outcomeAt_like (hR : ∀ c d, R c d → Alike c d) (h : Like R c d) (n : Nat) :
    Paired Eq (Token.Like R) (c.outcomeAt n) (d.outcomeAt n) := by
  induction n generalizing c d with
  | zero => exact (like_next hR h).1
  | succ n ih => exact ih (like_next hR h).2

end Cursor

/-! ## Whole texts -/

namespace Outcome

variable {a b : Outcome}

theorem isEnd_like (h : Paired Eq (Token.Like R) a b) : a.isEnd = b.isEnd := by
  cases h with
  | ok h => simp only [isEnd, Token.isEof, h.kind]
  | error _ => rfl

/-- Outcomes that are alike stay so where a stray character is an error. -/
theorem strict_like
    (hstray : ∀ token, a = .ok token → token.kind = .stray → token.lexeme.toList ≠ [])
    (hfault : ∀ error, a = .error error → ∀ c, error.fault ≠ .unrecognizedCharacter c)
    (h : Paired Eq (Token.Like R) a b) :
    Paired (Error.Like R) (Token.Like R) a.strict b.strict := by
  cases h with
  | @ok token token' h =>
    by_cases hkind : token.kind = .stray
    · have hkind' : token'.kind = .stray := h.kind.symm.trans hkind
      obtain ⟨c, rest, hlexeme⟩ := List.exists_cons_of_ne_nil (hstray token rfl hkind)
      obtain ⟨d, rest', hcd, -, hlexeme'⟩ := List.forall₂_cons_left_iff.1 (hlexeme ▸ h.lexeme)
      simp only [strict, if_pos hkind, if_pos hkind', hlexeme, hlexeme']
      exact .error ⟨.character hcd, h.position⟩
    · have hkind' : token'.kind ≠ .stray := fun heq => hkind (h.kind.trans heq)
      simp only [strict, if_neg hkind, if_neg hkind']
      exact .ok h
  | @error error _ h =>
    subst h
    exact .error ⟨.other (hfault error rfl), rfl⟩

end Outcome

namespace Cursor

variable {c d : Cursor}

theorem strict_outcomeAt_like (hR : ∀ c d, R c d → Alike c d) (h : Like R c d) (n : Nat) :
    Paired (Error.Like R) (Token.Like R) (c.outcomeAt n).strict (d.outcomeAt n).strict :=
  Outcome.strict_like (fun _ => lexeme_ne_nil_of_stray) (fun _ => fault_ne_of_error)
    (outcomeAt_like hR h n)

theorem tokens_like (hR : ∀ c d, R c d → Alike c d) (h : Like R c d) :
    Paired (Error.Like R) (List.Forall₂ (Token.Like R)) c.tokens d.tokens :=
  tokens_paired (strict_outcomeAt_like hR h) fun n => Outcome.isEnd_like (outcomeAt_like hR h n)

theorem start_like {text text' : List Char} (h : List.Forall₂ R text text') :
    Like R (start text) (start text') := .within h Position.start

end Cursor

/-- Both texts hold nothing but blanks or neither does. -/
theorem all_isBlank_of_alike {text text' : List Char} (h : List.Forall₂ Alike text text') :
    text.all Text.isBlank = text'.all Text.isBlank :=
  all_eq_of_alike (fun _ _ hcd => hcd.class_eq_of_isFixed fun _ => Item.isFixed_of_isBlank) h

/-- Texts that are alike are both opened or both refused. -/
theorem ofSource_like {source source' : String}
    (h : List.Forall₂ Alike source.toList source'.toList) :
    (∃ opened, Cursor.ofSource source = .ok opened) ↔
      ∃ opened, Cursor.ofSource source' = .ok opened := by
  simp only [Cursor.ofSource_eq_ok_iff, all_isBlank_of_alike h, exists_and_left, exists_eq]

/-- Texts that are alike have tokens that are alike, or errors that are. -/
theorem tokenize_like (hR : ∀ c d, R c d → Alike c d) {source source' : String}
    (h : List.Forall₂ R source.toList source'.toList) :
    Paired (Error.Like R) (List.Forall₂ (Token.Like R)) (tokenize source) (tokenize source') := by
  rw [tokenize_eq, tokenize_eq, all_isBlank_of_alike (h.imp hR)]
  split
  · exact .error ⟨.other fun c => Fault.noConfusion, rfl⟩
  · exact Cursor.tokens_like hR (Cursor.start_like h)

end SharpLexer
