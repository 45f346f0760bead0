import Mathlib.Data.List.Find
import SharpLexer.Proofs.Lookahead
import SharpLexer.Proofs.Window.Moves

/-!
# What a window reads

A window that stands on the first character of an item reads the item of the
grammar, and stops where the item does.

* Chains.  The condition of a loop relates a character and the one behind it.
  These lemmas say along which texts the relation holds.
* Loops.  For each loop, `RunsOn` says what its condition asks for, and one lemma
  says where it stops.
* Items.  `Window.read_number` and the lemmas beside it say what is read where an
  item of each class starts, with the bounds of the slice that it is taken from.
  Numbers, words and documentation share `Window.run_of_isChain`.
-/

namespace SharpLexer

namespace Window

open Cursor (within closing ended frame nothing)

variable {text rest tail body : List Char} {c d : Char} {p : Position}

/-! ## Chains -/

section Chains

variable {R : Char → Char → Prop} {span letters : List Char}

/-- Where a condition asks for the next character only. -/
theorem isChain_of_forall_mem (h : ∀ b ∈ span, ∀ a, R a b) (a : Char) :
    (a :: span).IsChain R := by
  induction span generalizing a with
  | nil => exact .singleton a
  | cons b span ih =>
    obtain ⟨hb, hspan⟩ := List.forall_mem_cons.1 h
    exact List.isChain_cons_cons.2 ⟨hb a, ih hspan b⟩

/-- Where it asks for the current character only. -/
theorem isChain_concat_of_forall_mem (h : ∀ a ∈ span, ∀ b, R a b) (stop : Char) :
    (span ++ [stop]).IsChain R := by
  induction span with
  | nil => exact .singleton stop
  | cons a span ih =>
    obtain ⟨ha, hspan⟩ := List.forall_mem_cons.1 h
    cases span with
    | nil => exact List.isChain_pair.2 (ha stop)
    | cons b span => exact List.isChain_cons_cons.2 ⟨ha b, ih hspan⟩

/-- Up to the first of its kind, every character differs from the stop. -/
theorem isChain_ne {x : Char} (h : x ∉ span) (stop : Char) :
    (span ++ [stop]).IsChain fun a _ => a ≠ x := by
  apply isChain_concat_of_forall_mem
  rintro a ha - rfl
  exact h ha

/-- A block comment goes on up to a star that a slash follows. -/
theorem isChain_block (hbody : ¬ ['*', '/'] <:+: body) {stop : Char} (hstop : stop ≠ '/') :
    (body ++ [stop]).IsChain fun a b => ¬ (a = '*' ∧ b = '/') := by
  rw [List.isChain_iff_forall_rel_of_append_cons_cons]
  rintro a b front back heq ⟨rfl, rfl⟩
  rcases List.eq_nil_or_concat back with rfl | ⟨back, x, rfl⟩
  · have hlast := congrArg List.getLast? heq
    simp at hlast
    exact hstop hlast
  · have hlast : body ++ [stop] = (front ++ '*' :: '/' :: back) ++ [x] := by simpa using heq
    have hinit : body = front ++ '*' :: '/' :: back := (List.append_inj' hlast rfl).1
    exact hbody ⟨front, back, by simp [hinit]⟩

/-- A word goes on from a character that goes on with one. -/
def GoesOn (a b : Char) : Prop :=
  Item.continuesWord a = true ∧ (Item.continuesWord b = true ∨ b = '?')

theorem continuesWord_of_mem (hfirst : Item.startsWord c = true)
    (hletters : ∀ a ∈ letters, Item.continuesWord a = true) :
    ∀ a ∈ c :: letters, Item.continuesWord a = true :=
  List.forall_mem_cons.2 ⟨Item.continuesWord_of_startsWord hfirst, hletters⟩

theorem isChain_question (hfirst : Item.startsWord c = true)
    (hletters : ∀ a ∈ letters, Item.continuesWord a = true) :
    (c :: (letters ++ ['?'])).IsChain GoesOn := by
  have hchain := isChain_concat_of_forall_mem (R := fun a _ => Item.continuesWord a = true)
    (fun a ha _ => continuesWord_of_mem hfirst hletters a ha) '?'
  refine hchain.imp_of_mem_tail_imp fun a b _ hb ha => ⟨ha, ?_⟩
  rcases List.mem_append.1 hb with hb | hb
  · exact Or.inl (hletters b hb)
  · exact Or.inr (List.mem_singleton.1 hb)

theorem isChain_letters (hfirst : Item.startsWord c = true)
    (hletters : ∀ a ∈ letters, Item.continuesWord a = true) : (c :: letters).IsChain GoesOn := by
  have hchain := isChain_question hfirst hletters
  rw [← List.cons_append] at hchain
  exact hchain.left_of_append

/-- Behind its last letter a word does not go on. -/
theorem not_goesOn_of_stops (hfirst : Item.startsWord c = true)
    (hletters : ∀ a ∈ letters, Item.continuesWord a = true)
    (hstops : (Item.word (c :: letters)).Stops tail) (a : Char) :
    ¬ GoesOn a (tail.head?.getD frame) := by
  rintro ⟨-, hnext⟩
  rcases hstops with hmark | hstop
  · exact absurd (continuesWord_of_mem hfirst hletters '?' hmark) (by decide)
  · cases tail with
    | nil => exact absurd hnext (by decide)
    | cons x tail =>
      obtain ⟨hx, hne⟩ := hstop x rfl
      rcases hnext with hx' | rfl
      · exact absurd hx' (by simp [hx])
      · exact hne rfl

end Chains

/-! ## Loops -/

theorem runsOn_inNumber : RunsOn text inNumber fun _ b => Number.continues b = true :=
  fun _ _ _ _ _ h => h

theorem runsOn_inWord : RunsOn text inWord GoesOn := by
  intro a b rest q _ h
  simpa [inWord, GoesOn] using h

theorem runsOn_inDoc : RunsOn text inDoc fun _ b => b ≠ '\n' := by
  intro a b rest q hsuffix hne
  simp [inDoc, nextIsEnd_within hsuffix, hne]

theorem runsOn_inLine : RunsOn text inLine fun a _ => a ≠ '\n' := by
  intro a b rest q hsuffix hne
  simp [inLine, atEnd_within hsuffix, hne]

theorem runsOut_inLine : RunsOut text inLine fun a _ => a ≠ '\n' := by
  constructor
  · intro a q hne
    simp [inLine, atEnd_within List.nil_suffix, hne]
  · intro q
    simp [inLine, atEnd_closing]

theorem runsOn_inQuotes (quote : Char) : RunsOn text (inQuotes quote) fun a _ => a ≠ quote := by
  intro a b rest q hsuffix hne
  simp [inQuotes, atEnd_within hsuffix, hne]

theorem runsOut_inQuotes (quote : Char) : RunsOut text (inQuotes quote) fun a _ => a ≠ quote := by
  constructor
  · intro a q hne
    simp [inQuotes, atEnd_within List.nil_suffix, hne]
  · intro q
    simp [inQuotes, atEnd_closing]

theorem runsOn_inBlock : RunsOn text inBlock fun a b => ¬ (a = '*' ∧ b = '/') := by
  intro a b rest q hsuffix hgo
  simpa [inBlock, atEnd_within hsuffix, imp_iff_not_or] using hgo

theorem runsOut_inBlock : RunsOut text inBlock fun a b => ¬ (a = '*' ∧ b = '/') := by
  constructor
  · intro a q _
    simp [inBlock, atEnd_within List.nil_suffix, frame]
  · intro q
    simp [inBlock, atEnd_closing]

/-- A block comment is passed over up to the star in front of its closing slash. -/
theorem skipBlock_of_close (hbody : ¬ ['*', '/'] <:+: body)
    (htext : '*' :: (body ++ '*' :: '/' :: tail) <:+ text) :
    (showing text (within d ('*' :: (body ++ '*' :: '/' :: tail)) p)).skipBlock =
      showing text (within '*' ('/' :: tail) (p.advance ('*' :: (body ++ ['*'])))) := by
  have hinner := (List.suffix_cons '*' _).trans htext
  rw [skipBlock, advance_within htext]
  exact advanceWhile_advance runsOn_inBlock hinner (isChain_block hbody (by decide))
    (by simp [inBlock])

theorem skipBlock_of_open (hbody : ¬ ['*', '/'] <:+: body) (htext : '*' :: body <:+ text) :
    (showing text (within d ('*' :: body) p)).skipBlock =
      showing text (closing (p.advance ('*' :: body)).right) := by
  have hinner := (List.suffix_cons '*' _).trans htext
  rw [skipBlock, advance_within htext]
  exact advanceWhile_advance_to_closing runsOn_inBlock runsOut_inBlock hinner
    (isChain_block hbody (by decide))

/-- A line comment is passed over up to its newline. -/
theorem skipLine_of_newline (hbody : '\n' ∉ body)
    (htext : '/' :: '/' :: (body ++ '\n' :: tail) <:+ text) :
    (showing text (within '/' ('/' :: (body ++ '\n' :: tail)) (p.step '/'))).skipLine =
      showing text (within '\n' tail (p.advance ('/' :: '/' :: (body ++ ['\n'])))) := by
  have hspan : '\n' ∉ '/' :: '/' :: body := by simp [hbody]
  have hsplit : ('/' :: '/' :: body) ++ '\n' :: tail <:+ text := htext
  rw [skipLine, ← advance_within (d := '/') htext]
  exact advanceWhile_advance runsOn_inLine hsplit (isChain_ne hspan '\n') (by simp [inLine])

theorem skipLine_of_end (hbody : '\n' ∉ body) (htext : '/' :: '/' :: body <:+ text) :
    (showing text (within '/' ('/' :: body) (p.step '/'))).skipLine =
      showing text (closing (p.advance ('/' :: '/' :: body)).right) := by
  have hspan : '\n' ∉ '/' :: '/' :: body := by simp [hbody]
  rw [skipLine, ← advance_within (d := '/') htext]
  exact advanceWhile_advance_to_closing runsOn_inLine runsOut_inLine htext (isChain_ne hspan frame)

/-! ## Which item is read -/

section Which

variable {w : Window}

/-- Two slashes open a comment, and a third one makes it documentation. -/
theorem read_slash_slash (hw : w = showing text (within '/' ('/' :: rest) p))
    (h : '/' :: rest <:+ text) :
    w.read = if rest.head?.getD frame = '/' then .done (w.doc p) else .again w.skipLine := by
  subst hw
  simp [read, atEnd_within h, Item.isQuote, charAt_showing_cons h]

/-- A slash and a star open a comment, which may lack its end. -/
theorem read_slash_star (hw : w = showing text (within '/' ('*' :: rest) p))
    (h : '*' :: rest <:+ text) :
    w.read =
      if w.skipBlock.atEnd then .done ⟨.error ⟨.unterminatedComment, p⟩, [], w.skipBlock⟩
      else .again w.skipBlock.advance := by
  subst hw
  simp [read, atEnd_within h, Item.isQuote]

theorem read_quote {quote : Char} (hquote : Item.isQuote quote = true)
    (hw : w = showing text (within quote rest p)) (h : rest <:+ text) :
    w.read = .done (w.quoted p) := by
  subst hw
  simp [read, atEnd_within h, hquote]

/-- What opens no item of another class is read as an operator. -/
theorem read_of_other (hw : w = showing text (within c rest p)) (h : rest <:+ text)
    (hquote : Item.isQuote c = false) (hword : Item.startsWord c = false)
    (hdigit : c.isDigit = false) (hline : ¬ ['/', '/'] <+: c :: rest)
    (hblock : ¬ ['/', '*'] <+: c :: rest) : w.read = .done (w.operator p) := by
  have hpair : ∀ x, x ≠ frame → ¬ ['/', x] <+: c :: rest →
      ¬ (c = '/' ∧ rest.head?.getD frame = x) := by
    rintro x hframe hnot ⟨rfl, hnext⟩
    cases rest with
    | nil => exact hframe hnext.symm
    | cons y rest =>
      obtain rfl : y = x := hnext
      exact hnot ⟨rest, rfl⟩
  have hslash := hpair '/' (by decide) hline
  have hstar := hpair '*' (by decide) hblock
  subst hw
  simp [read, atEnd_within h, hquote, hword, hdigit, hslash, hstar]

end Which

/-! ## Items -/

/-- A loop that looks ahead stops on the last character of its run, and the slice
from the first character on holds the run. -/
theorem run_of_isChain {loop : Window → Bool} {R : Char → Char → Prop} {more : List Char}
    (hgo : RunsOn text loop R) (hchain : (c :: more).IsChain R)
    (hstop : loop (showing text (within (more.getLast?.getD c) tail (p.advance more))) = false)
    (htext : c :: (more ++ tail) <:+ text) :
    (showing text (within c (more ++ tail) p)).advanceWhile loop =
        showing text (within (more.getLast?.getD c) tail (p.advance more)) ∧
      (showing text (within (more.getLast?.getD c) tail (p.advance more))).slice
        (offset text (c :: (more ++ tail))) (offset text tail) = c :: more := by
  have hinner : more ++ tail <:+ text := (List.suffix_cons c _).trans htext
  refine ⟨?_, slice_showing (c :: more) htext _⟩
  rw [advanceWhile_of_isChain hgo hinner hchain]
  exact advanceWhile_of_not hstop

theorem read_number {digits : List Char} (hfirst : c.isDigit = true)
    (hdigits : ∀ x ∈ digits, Number.continues x = true)
    (hstop : ∀ x ∈ tail.head?, Number.continues x = false)
    (htext : c :: (digits ++ tail) <:+ text) :
    (showing text (within c (digits ++ tail) p)).read =
      .done ⟨(Item.number (c :: digits)).outcome p,
        [(offset text (c :: (digits ++ tail)), offset text tail)],
        showing text (within (digits.getLast?.getD c) tail (p.advance digits))⟩ := by
  have hinner : digits ++ tail <:+ text := (List.suffix_cons c _).trans htext
  have hquote : Item.isQuote c = false :=
    Item.isQuote_eq_false_of_class (by decide) (by decide) hfirst
  have hword := Item.startsWord_eq_false_of_isDigit hfirst
  have hslash : c ≠ '/' := (Item.isBlank_eq_false_of_class (Or.inr (Or.inr hfirst))).2
  have hends : inNumber (showing text
      (within (digits.getLast?.getD c) tail (p.advance digits))) = false := by
    cases tail with
    | nil => rfl
    | cons x tail => exact hstop x rfl
  obtain ⟨hlast, hslice⟩ := run_of_isChain runsOn_inNumber
    (isChain_of_forall_mem (fun b hb _ => hdigits b hb) c) hends htext
  have hread : (showing text (within c (digits ++ tail) p)).read =
      .done ((showing text (within c (digits ++ tail) p)).number p) := by
    simp [read, atEnd_within hinner, hquote, hword, hslash, hfirst]
  rw [hread, number]
  simp only [hlast, index_of_cons htext, index_add_one, hslice]

theorem read_word {more : List Char} (hfirst : Item.startsWord c = true)
    (hchain : (c :: more).IsChain GoesOn)
    (hstop : ¬ GoesOn (more.getLast?.getD c) (tail.head?.getD frame))
    (htext : c :: (more ++ tail) <:+ text) :
    (showing text (within c (more ++ tail) p)).read =
      .done ⟨(Item.word (c :: more)).outcome p,
        [(offset text (c :: (more ++ tail)), offset text tail)],
        showing text (within (more.getLast?.getD c) tail (p.advance more))⟩ := by
  have hinner : more ++ tail <:+ text := (List.suffix_cons c _).trans htext
  have hslash : c ≠ '/' := (Item.isBlank_eq_false_of_class (Or.inr (Or.inl hfirst))).2
  have hquote : Item.isQuote c = false :=
    Item.isQuote_eq_false_of_class (by decide) (by decide) hfirst
  have hends : inWord (showing text
      (within (more.getLast?.getD c) tail (p.advance more))) = false := by
    rw [← Bool.not_eq_true]
    intro hgo
    exact hstop (by simpa [inWord, GoesOn] using hgo)
  obtain ⟨hlast, hslice⟩ := run_of_isChain runsOn_inWord hchain hends htext
  have hread : (showing text (within c (more ++ tail) p)).read =
      .done ((showing text (within c (more ++ tail) p)).word p) := by
    simp [read, atEnd_within hinner, hquote, hslash, hfirst]
  rw [hread, word]
  simp only [hlast, index_of_cons htext, index_add_one, hslice]
  rfl

theorem read_doc (hbody : '\n' ∉ body) (hstop : ∀ x ∈ tail.head?, x = '\n')
    (htext : '/' :: '/' :: '/' :: (body ++ tail) <:+ text) :
    (showing text (within '/' ('/' :: '/' :: (body ++ tail)) p)).read =
      .done ⟨(Item.doc ('/' :: '/' :: '/' :: body)).outcome p,
        [(offset text ('/' :: '/' :: '/' :: (body ++ tail)), offset text tail)],
        showing text (within (('/' :: '/' :: body).getLast?.getD '/') tail
          (p.advance ('/' :: '/' :: body)))⟩ := by
  have hinner : '/' :: '/' :: (body ++ tail) <:+ text := (List.suffix_cons '/' _).trans htext
  have htail : tail <:+ text := (List.suffix_append ('/' :: '/' :: body) tail).trans hinner
  have hspan : ∀ b ∈ '/' :: '/' :: body, b ≠ '\n' := by
    rintro b hb rfl
    exact hbody (by simpa using hb)
  have hends : inDoc (showing text (within (('/' :: '/' :: body).getLast?.getD '/') tail
      (p.advance ('/' :: '/' :: body)))) = false := by
    cases tail with
    | nil => simp [inDoc, nextIsEnd_within htail]
    | cons x tail =>
      obtain rfl := hstop x rfl
      rfl
  obtain ⟨hlast, hslice⟩ := run_of_isChain runsOn_inDoc
    (isChain_of_forall_mem (fun b hb _ => hspan b hb) '/') hends htext
  rw [read_slash_slash rfl hinner, if_pos (by simp), doc]
  simp only [List.cons_append] at hlast hslice
  simp only [hlast, index_of_cons htext, index_add_one, hslice]
  rfl

section Quotes

variable {quote : Char}

theorem read_quoted (hquote : Item.isQuote quote = true) (hbody : quote ∉ body)
    (htext : body ++ quote :: tail <:+ text) :
    (showing text (within quote (body ++ quote :: tail) p)).read =
      .done ⟨(Item.quoted quote body).outcome p,
        [(offset text (body ++ quote :: tail), offset text (quote :: tail))],
        showing text (within quote tail (p.advance (body ++ [quote])))⟩ := by
  have htail : quote :: tail <:+ text := (List.suffix_append body _).trans htext
  have hlast : (showing text (within quote (body ++ quote :: tail) p)).advance.advanceWhile
      (inQuotes quote) = showing text (within quote tail (p.advance (body ++ [quote]))) :=
    advanceWhile_advance (runsOn_inQuotes quote) htext (isChain_ne hbody quote)
      (by simp [inQuotes])
  have hslice := slice_showing body htext (within quote tail (p.advance (body ++ [quote])))
  rw [read_quote hquote rfl htext, quoted]
  simp only [current_showing, Cursor.current_within, hlast, if_true, index_advance htext (by simp),
    index_of_cons htail, hslice]
  rfl

theorem read_openQuoted (hquote : Item.isQuote quote = true) (hbody : quote ∉ body)
    (htext : body <:+ text) :
    (showing text (within quote body p)).read =
      .done ⟨(Item.openQuoted quote body).outcome p, [],
        showing text (closing (p.advance body).right)⟩ := by
  have hframe : frame ≠ quote := by
    rintro rfl
    exact absurd hquote (by decide)
  have hlast : (showing text (within quote body p)).advance.advanceWhile (inQuotes quote) =
      showing text (closing (p.advance body).right) :=
    advanceWhile_advance_to_closing (runsOn_inQuotes quote) (runsOut_inQuotes quote) htext
      (isChain_ne hbody frame)
  rw [read_quote hquote rfl htext, quoted]
  simp only [current_showing, Cursor.current_within, Cursor.current_closing, hlast, if_neg hframe]
  rfl

end Quotes

/-- Three characters are enough to see which operator stands there. -/
theorem find?_view (rest : List Char) :
    Operator.find? [c, rest.head?.getD frame, ((rest ++ [frame])[1]?).getD nothing] =
      Operator.find? (c :: rest) := by
  have hspec : ∀ op ∈ Operator.table, op.symbol.length ≤ 3 ∧ frame ∉ op.symbol := by
    decide +kernel
  unfold Operator.find?
  apply List.find?_congr
  intro op hop
  obtain ⟨hlength, hframe⟩ := hspec op hop
  rw [Bool.eq_iff_iff, List.isPrefixOf_iff_prefix, List.isPrefixOf_iff_prefix]
  -- what stands behind the text is not part of a symbol
  have hends : ∀ front behind : List Char,
      op.symbol <+: front ++ frame :: behind ↔ op.symbol <+: front :=
    fun front behind => ⟨prefix_of_prefix_append_cons hframe,
      fun h => h.trans (List.prefix_append front _)⟩
  match rest with
  | [] => exact hends [c] [nothing]
  | [x] => exact hends [c, x] []
  | x :: y :: rest =>
    constructor
    · exact fun h => h.trans (List.prefix_append [c, x, y] rest)
    · exact fun h => List.prefix_take_iff.2 ⟨h, hlength⟩

theorem advanceBy_within {more : List Char} (h : more ++ tail <:+ text) :
    (showing text (within c (more ++ tail) p)).advanceBy more.length =
      showing text (within (more.getLast?.getD c) tail (p.advance more)) := by
  induction more generalizing c p with
  | nil => rfl
  | cons x more ih =>
    rw [List.cons_append] at h ⊢
    rw [List.length_cons, advanceBy, advance_within h, ih ((List.suffix_cons x _).trans h),
      List.getLast?_cons]
    rfl

/-- What the window does where an operator can stand is told by the table. -/
theorem read_operator (h : rest <:+ text) (hquote : Item.isQuote c = false)
    (hword : Item.startsWord c = false) (hdigit : c.isDigit = false)
    (hline : ¬ ['/', '/'] <+: c :: rest) (hblock : ¬ ['/', '*'] <+: c :: rest) :
    (showing text (within c rest p)).read =
      match Operator.find? (c :: rest) with
      | some op => .done ⟨(Item.operator op).outcome p, [],
          (showing text (within c rest p)).advanceBy (op.symbol.length - 1)⟩
      | none => .done ⟨(Item.stray c).outcome p, [], showing text (within c rest p)⟩ := by
  rw [read_of_other rfl h hquote hword hdigit hline hblock, operator, charAt_showing h,
    current_showing, lookahead_showing, Cursor.current_within, Cursor.peek_within, find?_view]
  cases Operator.find? (c :: rest) <;> rfl

end Window

end SharpLexer
