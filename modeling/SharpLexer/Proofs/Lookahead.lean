import SharpLexer.Proofs.Run

/-!
# One character of lookahead

A reading looks at the characters that it takes and at one more.  So two
texts that agree up to one character behind an outcome have that outcome in
common, and all the outcomes in front of it.

There are two groups.

* What ends an item.  `Item.stops_of_head?_eq` says that `Item.Stops` hangs
  on one character of the text behind the item.  The only item that could
  see further is an operator, and `Operator.exists_longer` says why it does
  not: the table misses no length between a symbol and a longer one.
* Two runs.  `Cursor.Parallel` relates two cursors that read on over the same
  characters before their texts part.  `Cursor.parallel_next` is one reading
  of both, and `Cursor.parallel_later` any number of them.
  `Cursor.coversTo_iff` says how far an outcome goes, so that two texts can be
  compared up to there.
-/

namespace SharpLexer

open Trivia (ClosedGap gapText)

/-! ## What ends an item -/

section Fits

variable {α : Type} {symbol front rest rest' : List α}

/-- A list that is longer by at most one element than `front` fits or not by
the first element behind `front`. -/
theorem prefix_append_of_head?_eq (hhead : rest.head? = rest'.head?)
    (hlength : symbol.length ≤ front.length + 1) (hfits : symbol <+: front ++ rest) :
    symbol <+: front ++ rest' := by
  have hone : rest.take 1 = rest'.take 1 := by
    rw [List.take_one, List.take_one, hhead]
  have hshort : symbol <+: (front ++ rest).take (front.length + 1) :=
    List.prefix_take_iff.2 ⟨hfits, hlength⟩
  rw [List.take_length_add_append, hone, ← List.take_length_add_append] at hshort
  exact hshort.trans (List.take_prefix _ _)

/-- A list ends where an element follows that it does not have. -/
theorem prefix_of_prefix_append_cons {x : α} (hx : x ∉ symbol)
    (hfits : symbol <+: front ++ x :: rest) : symbol <+: front := by
  rcases Nat.lt_or_ge front.length symbol.length with hlong | hshort
  · have hfront : front ++ [x] <+: front ++ x :: rest := ⟨rest, by simp⟩
    have hinside : front ++ [x] <+: symbol :=
      List.prefix_of_prefix_length_le hfront hfits (by simpa using Nat.succ_le_of_lt hlong)
    exact absurd (hinside.subset (by simp)) hx
  · exact List.prefix_of_prefix_length_le hfits (List.prefix_append _ _) hshort

end Fits

namespace Operator

/-- Between a symbol of the table and a longer one that goes on with it
stands one that is longer by a single character. -/
theorem exists_longer : ∀ op ∈ table, ∀ other ∈ table, op.symbol <+: other.symbol →
    op.symbol.length < other.symbol.length →
      ∃ longer ∈ table, longer.symbol = other.symbol.take (op.symbol.length + 1) := by
  decide +kernel

theorem symbol_spec : ∀ op ∈ table, op.symbol.all (!Text.isBlank ·) = true ∧
    ¬ ['/', '/'] <+: op.symbol ∧ ¬ ['/', '*'] <+: op.symbol := by
  decide +kernel

theorem isBlank_eq_false_of_mem {op : Operator} (hop : op ∈ table) {c : Char}
    (hc : c ∈ op.symbol) : Text.isBlank c = false := by
  simpa using List.all_eq_true.1 (symbol_spec op hop).1 c hc

/-- Where a symbol that is longer than `op` fits, one more character is
enough to see that `op` is not the longest. -/
theorem length_le_of_head?_eq {op other : Operator} (hop : op ∈ table) (hother : other ∈ table)
    {rest rest' : List Char} (hhead : rest.head? = rest'.head?)
    (hlongest : ∀ other ∈ table, other.symbol <+: op.symbol ++ rest →
      other.symbol.length ≤ op.symbol.length)
    (hfits : other.symbol <+: op.symbol ++ rest') :
    other.symbol.length ≤ op.symbol.length := by
  by_contra hlonger
  have hless : op.symbol.length < other.symbol.length := by omega
  have hinside : op.symbol <+: other.symbol :=
    List.prefix_of_prefix_length_le (List.prefix_append _ _) hfits (by omega)
  obtain ⟨longer, hmem, hsymbol⟩ := exists_longer op hop other hother hinside hless
  have hlength : longer.symbol.length = op.symbol.length + 1 := by
    rw [hsymbol, List.length_take]
    omega
  have hlongerFits : longer.symbol <+: op.symbol ++ rest' := by
    rw [hsymbol]
    exact (List.take_prefix _ _).trans hfits
  have hback : longer.symbol <+: op.symbol ++ rest :=
    prefix_append_of_head?_eq hhead.symm (by omega) hlongerFits
  have := hlongest longer hmem hback
  omega

end Operator

namespace Item

/-- Whether the text behind an item goes on with it is seen from its first
character. -/
theorem stops_of_head?_eq {item : Item} (hshape : item.WellFormed) {rest rest' : List Char}
    (hhead : rest.head? = rest'.head?) (hstops : item.Stops rest) : item.Stops rest' := by
  cases hshape with
  | @operator op hop =>
    obtain ⟨hlongest, hline, hblock⟩ := hstops
    have hpos := List.length_pos_iff.2 (Operator.symbol_ne_nil op hop)
    have htwo : 2 ≤ op.symbol.length + 1 := by omega
    refine ⟨?_, ?_, ?_⟩
    · intro other hother hfits
      exact Operator.length_le_of_head?_eq hop hother hhead hlongest hfits
    · intro hfits
      exact hline (prefix_append_of_head?_eq hhead.symm htwo hfits)
    · intro hfits
      exact hblock (prefix_append_of_head?_eq hhead.symm htwo hfits)
  | openQuoted _ _ | openBlock _ =>
    obtain rfl : rest = [] := hstops
    exact List.head?_eq_none_iff.1 hhead.symm
  | word _ _ | question _ _ | number _ _ | doc _ =>
    simp only [Stops, hhead] at hstops ⊢
    exact hstops
  | quoted _ _ | stray _ => trivial

/-- A blank ends an operator. -/
theorem stops_operator_of_blank {op : Operator} (hop : op ∈ Operator.table) {c : Char}
    (hblank : Text.isBlank c = true) (rest : List Char) :
    (operator op).Stops (c :: rest) := by
  obtain ⟨-, hline, hblock⟩ := Operator.symbol_spec op hop
  have hslash : c ≠ '/' ∧ c ≠ '*' := by
    constructor <;> rintro rfl <;> exact absurd hblank (by decide)
  refine ⟨?_, ?_, ?_⟩
  · intro other hother hfits
    have hnot : c ∉ other.symbol := by
      intro hmem
      rw [Operator.isBlank_eq_false_of_mem hother hmem] at hblank
      exact absurd hblank (by decide)
    exact (prefix_of_prefix_append_cons hnot hfits).length_le
  · intro hfits
    exact hline (prefix_of_prefix_append_cons (by simp [hslash.1]) hfits)
  · intro hfits
    exact hblock (prefix_of_prefix_append_cons (by simp [hslash.1, hslash.2]) hfits)

/-- A newline ends every item but one that lacks its own end. -/
theorem stops_newline {item : Item} (hshape : item.WellFormed) (hclosed : item.isOpen = false)
    (rest : List Char) : item.Stops ('\n' :: rest) := by
  cases hshape with
  | operator hop => exact stops_operator_of_blank hop (by decide) rest
  | word _ _ | question _ _ =>
    right
    intro c hc
    obtain rfl : '\n' = c := by simpa using hc
    decide
  | number _ _ =>
    intro c hc
    obtain rfl : '\n' = c := by simpa using hc
    decide
  | quoted _ _ | stray _ => trivial
  | doc _ =>
    intro c hc
    simpa using hc.symm
  | openQuoted _ _ | openBlock _ => exact absurd hclosed (by simp [isOpen])

end Item

/-! ## Two runs -/

namespace Cursor

/-- Two cursors on the same character and at the same place.  They read on
over the same characters, up to where only `back` is left to the first and
`back'` to the second. -/
inductive Parallel (back back' : List Char) : Cursor → Cursor → Prop where
  | within (current : Char) (common : List Char) (p : Position) :
      Parallel back back' (within current (common ++ back) p) (within current (common ++ back') p)

variable {back back' : List Char} {c d : Cursor}

theorem parallel_start (common : List Char) :
    Parallel back back' (start (common ++ back)) (start (common ++ back')) :=
  .within frame common Position.start

/-- As long as the first cursor leaves more than `back`, a reading gives the
same outcome on both sides, and leaves the cursors alike. -/
theorem parallel_next (h : Parallel back back' c d)
    (hahead : back.length < c.next.cursor.unread.length) :
    d.next.value = c.next.value ∧ Parallel back back' c.next.cursor d.next.cursor := by
  obtain ⟨current, common, p⟩ := h
  rcases next_cases (within current (common ++ back) p) with
    ⟨gap, -, -, hnext⟩ | ⟨gap, item, tail, hgap, hshape, hstops, hunread, hnext⟩
  · rw [hnext] at hahead
    exact absurd hahead (Nat.not_lt_zero _)
  · rw [hnext, unread_after hstops] at hahead
    have htext : common ++ back = gapText gap ++ (item.text ++ tail) := hunread
    obtain ⟨more, rfl⟩ : ∃ more, more ++ back = tail := by
      have hback : back <:+ common ++ back := List.suffix_append _ _
      have htail : tail <:+ common ++ back := by
        rw [htext, ← List.append_assoc]
        exact List.suffix_append _ _
      exact List.suffix_of_suffix_length_le hback htail hahead.le
    obtain rfl : common = gapText gap ++ (item.text ++ more) := by
      have hback : common ++ back = gapText gap ++ (item.text ++ more) ++ back := by simp [htext]
      exact List.append_cancel_right hback
    have hmore : more ≠ [] := by
      rintro rfl
      simp at hahead
    -- the character behind the item is in the common part
    have hhead : (more ++ back).head? = (more ++ back').head? := by
      rw [List.head?_append_of_ne_nil _ hmore, List.head?_append_of_ne_nil _ hmore]
    have hother := read_item hgap hshape (Item.stops_of_head?_eq hshape hhead hstops) p
    rw [← List.append_assoc item.text, ← List.append_assoc (gapText gap)] at hother
    have hclosed : item.isOpen = false := by
      rw [← Bool.not_eq_true]
      intro hopen
      have hnil := Item.eq_nil_of_isOpen hopen hstops
      exact hmore (List.append_eq_nil_iff.1 hnil).1
    rw [hnext, next_within, hother]
    refine ⟨rfl, ?_⟩
    simp only [after, hclosed, Bool.false_eq_true, if_false, position]
    exact .within _ more _

/-- The same for any number of readings. -/
theorem parallel_later (h : Parallel back back' c d) {n : Nat}
    (hahead : back.length < (c.later n).unread.length) :
    Parallel back back' (c.later n) (d.later n) ∧ ∀ i < n, d.outcomeAt i = c.outcomeAt i := by
  induction n with
  | zero => exact ⟨h, fun i hi => absurd hi (Nat.not_lt_zero i)⟩
  | succ n ih =>
    have hbefore := (unread_later_suffix c (Nat.le_add_right n 1)).length_le
    obtain ⟨hparallel, hfront⟩ := ih (by omega)
    rw [later_succ'] at hahead
    obtain ⟨hvalue, hnext⟩ := parallel_next hparallel hahead
    rw [later_succ', later_succ']
    refine ⟨hnext, ?_⟩
    intro i hi
    rcases Nat.lt_succ_iff_lt_or_eq.1 hi with hlt | rfl
    · exact hfront i hlt
    · exact hvalue

theorem Parallel.place_eq (h : Parallel back back' c d) :
    d.position = c.position ∧ d.current = c.current := by
  cases h
  exact ⟨rfl, rfl⟩

/-- The outcome that `n` others go before is written in characters of `text`
that end at the offset `stop`, which is one past the last of them.  The
quotes of a string count, and so does the carriage return that a
documentation comment drops. -/
def CoversTo (text : List Char) (c : Cursor) (n stop : Nat) : Prop :=
  (c.outcomeAt n).isEnd = false ∧
    ∃ front gap spelling rest, text = front ++ (c.later n).unread ∧
      (c.later n).unread = gapText gap ++ (spelling ++ rest) ∧ (c.later (n + 1)).unread = rest ∧
      ClosedGap gap ∧ spelling ≠ [] ∧ (c.outcomeAt n).Spells spelling ∧
      stop = (front ++ gapText gap ++ spelling).length

/-- So an outcome covers the text up to what is ahead afterwards, however it is
written. -/
theorem coversTo_iff {text : List Char} {c : Cursor} {n stop : Nat}
    (h : (c.later n).unread <:+ text) :
    c.CoversTo text n stop ↔
      (c.outcomeAt n).isEnd = false ∧ stop + (c.later (n + 1)).unread.length = text.length := by
  constructor
  · rintro ⟨hend, front, gap, spelling, rest, htext, hunread, hrest, -, -, -, rfl⟩
    rw [htext, hunread, hrest]
    exact ⟨hend, by simp [Nat.add_assoc]⟩
  · rintro ⟨hend, hlength⟩
    obtain ⟨front, hfront⟩ := h
    obtain ⟨gap, item, tail, hgap, hshape, hstops, hunread, hnext⟩ :=
      exists_item_of_not_isEnd hend
    have hrest : (c.later (n + 1)).unread = tail := by
      rw [later_succ', hnext]
      exact unread_after hstops _
    have hspells : (c.outcomeAt n).Spells item.text := by
      rw [outcomeAt, hnext]
      exact Item.spells_outcome hshape _
    refine ⟨hend, front, gap, item.text, tail, hfront.symm, hunread, hrest, hgap,
      Item.text_ne_nil_of_wellFormed hshape, hspells, ?_⟩
    rw [hrest, ← hfront, hunread] at hlength
    simp only [List.length_append] at hlength ⊢
    omega

end Cursor

/-- Two texts that have their first `k` characters in common.  As long as the
outcomes over the first text end in front of the last of these characters,
those over the second text are the same, and both cursors stand on the same
character at the same place. -/
theorem outcomeAt_of_common_start {source other : String} {opened : Reading Unit}
    {k n stop : Nat} (h : Cursor.ofSource source = .ok opened) (hlength : k ≤ source.toList.length)
    (hcommon : source.toList.take k = other.toList.take k)
    (hcovers : opened.cursor.CoversTo source.toList n stop) (hstop : stop < k) :
    ∃ again, Cursor.ofSource other = .ok again ∧ ∀ i ≤ n,
      again.cursor.outcomeAt i = opened.cursor.outcomeAt i ∧
        (again.cursor.later (i + 1)).position = (opened.cursor.later (i + 1)).position ∧
        (again.cursor.later (i + 1)).current = (opened.cursor.later (i + 1)).current := by
  obtain ⟨-, rfl⟩ := Cursor.ofSource_eq_ok_iff.1 h
  have hahead : ((Cursor.start source.toList).later n).unread <:+ source.toList :=
    Cursor.unread_later_suffix _ (Nat.zero_le n)
  obtain ⟨hend, hcovered⟩ : ((Cursor.start source.toList).outcomeAt n).isEnd = false ∧
      stop + ((Cursor.start source.toList).later (n + 1)).unread.length =
        source.toList.length :=
    (Cursor.coversTo_iff hahead).1 hcovers
  have hparallel : Cursor.Parallel (source.toList.drop k) (other.toList.drop k)
      (Cursor.start source.toList) (Cursor.start other.toList) := by
    have hstart : Cursor.Parallel (source.toList.drop k) (other.toList.drop k)
        (Cursor.start (source.toList.take k ++ source.toList.drop k))
        (Cursor.start (source.toList.take k ++ other.toList.drop k)) :=
      Cursor.parallel_start (source.toList.take k)
    rwa [List.take_append_drop, hcommon, List.take_append_drop] at hstart
  have hleft : (source.toList.drop k).length <
      ((Cursor.start source.toList).later (n + 1)).unread.length := by
    rw [List.length_drop]
    omega
  have hsame := (Cursor.parallel_later hparallel hleft).2
  have hblank : other.toList.all Text.isBlank = false := by
    rw [← Bool.not_eq_true]
    intro hall
    have hmark := Cursor.outcomeAt_of_blank (c := Cursor.start other.toList) hall n
    rw [hsame n (Nat.lt_succ_self n)] at hmark
    rw [hmark] at hend
    exact absurd hend (by simp)
  refine ⟨_, Cursor.ofSource_eq_ok_iff.2 ⟨hblank, rfl⟩, ?_⟩
  intro i hi
  have hbefore := (Cursor.unread_later_suffix (Cursor.start source.toList)
    (Nat.add_le_add_right hi 1)).length_le
  obtain ⟨hafter, -⟩ := Cursor.parallel_later hparallel (Nat.lt_of_lt_of_le hleft hbefore)
  exact ⟨hsame i (Nat.lt_succ_of_le hi), hafter.place_eq⟩

/-- Two texts that part behind a blank. -/
def blankSource : String := "x/**/<< <"

def otherBlankSource : String := "x/**/<< 'e"

/-- The shift is the same in both texts, since the blank behind it is. -/
theorem outcomeAt_of_common_blank :
    (Cursor.start blankSource.toList).CoversTo blankSource.toList 1 7 ∧
      blankSource.toList.take 8 = otherBlankSource.toList.take 8 ∧
      ∃ again, Cursor.ofSource otherBlankSource = .ok again ∧ ∀ i ≤ 1,
        again.cursor.outcomeAt i = (Cursor.start blankSource.toList).outcomeAt i ∧
          (again.cursor.later (i + 1)).position =
            ((Cursor.start blankSource.toList).later (i + 1)).position ∧
          (again.cursor.later (i + 1)).current =
            ((Cursor.start blankSource.toList).later (i + 1)).current := by
  have hopened : Cursor.ofSource blankSource =
      .ok ⟨(), [.opened 9], Cursor.start blankSource.toList⟩ :=
    Cursor.ofSource_eq_ok_iff.2 ⟨by decide, rfl⟩
  have hshift : (Cursor.start blankSource.toList).outcomeAt 1 =
      .ok (.plain .shiftLeft ['<', '<'] ⟨1, 6⟩) := by
    decide +kernel
  have hgap : ClosedGap [.block []] := by simp [ClosedGap, Trivia.WellFormed, Trivia.isClosed]
  have hcovers : (Cursor.start blankSource.toList).CoversTo blankSource.toList 1 7 := by
    refine ⟨by decide +kernel, ['x'], [.block []], ['<', '<'], [' ', '<'], by decide +kernel,
      by decide +kernel, by decide +kernel, hgap, by decide, ?_, by decide⟩
    rw [hshift]
    exact .lexeme (by decide) (by decide) (by decide)
  have hcommon : blankSource.toList.take 8 = otherBlankSource.toList.take 8 := by decide
  exact ⟨hcovers, hcommon, outcomeAt_of_common_start hopened (by decide) hcommon hcovers
    (by decide)⟩

end SharpLexer
