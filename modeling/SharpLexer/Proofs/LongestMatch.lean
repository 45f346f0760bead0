import SharpLexer.Proofs.Gap
import SharpLexer.Scan.Item

/-!
# The grammar of items

`Item.cut` cuts the item off a text.  This module says which items there
are and where an item ends, without cutting anything, and that these rules
fix the cut.

* `Operator.find?_eq_some_iff` says that the table is searched for the
  longest symbol.
* `Item.WellFormed` is the shape of an item, and `Item.Stops` says that the
  text behind an item cannot go on with it.
* `Item.cut_spec` says that the cut keeps to both, and `Item.cut_unique`
  that nothing else does.
-/

namespace SharpLexer

/-! ## The longest operator -/

namespace Operator

/-- The symbols stand in the order of their lengths. -/
theorem table_sorted : table.Pairwise (fun a b => b.symbol.length ≤ a.symbol.length) := by
  decide

/-- A symbol stands in the table once. -/
theorem eq_of_symbol_eq : ∀ a ∈ table, ∀ b ∈ table, a.symbol = b.symbol → a = b := by
  decide +kernel

/-- Every first character of a symbol is a symbol itself. -/
theorem exists_single : ∀ op ∈ table, ∃ single ∈ table, single.symbol = op.symbol.take 1 := by
  decide +kernel

/-- A character that starts an operator. -/
def starts (c : Char) : Bool := table.any fun op => op.symbol.head? = some c

theorem starts_eq_true_iff {c : Char} :
    starts c = true ↔ ∃ op ∈ table, op.symbol.head? = some c := by
  simp [starts]

/-- Where no symbol fits, the character starts none. -/
theorem find?_eq_none_iff {c : Char} {rest : List Char} :
    find? (c :: rest) = none ↔ starts c = false := by
  rw [← Bool.not_eq_true, starts_eq_true_iff, find?, List.find?_eq_none]
  constructor
  · intro h hstarts
    obtain ⟨op, hop, hhead⟩ := hstarts
    obtain ⟨single, hsingle, htake⟩ := exists_single op hop
    apply h single hsingle
    have hsymbol : single.symbol = [c] := by
      rcases hs : op.symbol with _ | ⟨d, symbol⟩
      · simp [hs] at hhead
      · obtain rfl : d = c := by simpa [hs] using hhead
        simpa [hs] using htake
    simp [hsymbol]
  · intro h op hop hfits
    refine h ⟨op, hop, ?_⟩
    obtain ⟨back, hback⟩ := List.isPrefixOf_iff_prefix.1 hfits
    rcases hs : op.symbol with _ | ⟨d, symbol⟩
    · exact absurd hs (symbol_ne_nil op hop)
    · obtain ⟨rfl, -⟩ : d = c ∧ _ := by simpa [hs] using hback
      rfl

theorem length_le_of_find? {text : List Char} {op other : Operator}
    (h : find? text = some op) (hother : other ∈ table) (hfits : other.symbol <+: text) :
    other.symbol.length ≤ op.symbol.length := by
  obtain ⟨_, front, back, htable, hfront⟩ := List.find?_eq_some_iff_append.1 h
  have hsorted := table_sorted
  rw [htable] at hother hsorted
  rcases List.mem_append.1 hother with hmem | hmem
  · have hnot : other.symbol.isPrefixOf text = false := by simpa using hfront other hmem
    rw [List.isPrefixOf_iff_prefix.2 hfits] at hnot
    exact absurd hnot (by decide)
  · rcases List.mem_cons.1 hmem with rfl | hmem
    · exact Nat.le_refl _
    · have htail := (List.pairwise_append.1 hsorted).2.1
      exact List.rel_of_pairwise_cons htail hmem

/-- The operator that is found is the longest of the table that fits. -/
theorem find?_eq_some_iff {text : List Char} {op : Operator} :
    find? text = some op ↔
      op ∈ table ∧ op.symbol <+: text ∧
        ∀ other ∈ table, other.symbol <+: text → other.symbol.length ≤ op.symbol.length := by
  constructor
  · intro h
    exact ⟨(find?_eq_some h).1, (find?_eq_some h).2, fun _ => length_le_of_find? h⟩
  · intro h
    obtain ⟨hop, hfits, hlongest⟩ := h
    cases hfind : find? text with
    | none =>
      have hnone := List.find?_eq_none.1 hfind op hop
      exact absurd (List.isPrefixOf_iff_prefix.2 hfits) hnone
    | some found =>
      obtain ⟨hfound, hfits'⟩ := find?_eq_some hfind
      have hlength : found.symbol.length = op.symbol.length :=
        Nat.le_antisymm (hlongest found hfound hfits') (length_le_of_find? hfind hop hfits)
      have hsymbol : found.symbol = op.symbol :=
        (List.prefix_of_prefix_length_le hfits' hfits hlength.le).eq_of_length hlength
      rw [eq_of_symbol_eq found hfound op hop hsymbol]

/-- No operator starts like an item of another class or like a blank. -/
theorem classes_of_starts {c : Char} (h : starts c = true) :
    Text.isBlank c = false ∧ Item.isQuote c = false ∧ Item.startsWord c = false ∧
      c.isDigit = false := by
  obtain ⟨op, hop, hhead⟩ := starts_eq_true_iff.1 h
  have hall : ∀ op ∈ table, op.symbol.head?.all (fun c =>
      !Text.isBlank c && !Item.isQuote c && !Item.startsWord c && !c.isDigit) = true := by
    decide +kernel
  have hc := hall op hop
  rw [hhead] at hc
  simpa [and_assoc] using hc

end Operator

namespace Item

/-! ## Classes of characters -/

/-- A character that a reader knows: it separates tokens or starts one. -/
def isRecognised (c : Char) : Bool :=
  Text.isBlank c || isQuote c || startsWord c || c.isDigit || Operator.starts c

theorem eq_of_isQuote {c : Char} (h : isQuote c = true) : c = '"' ∨ c = '\'' := by
  simpa [isQuote] using h

/-- A character of a class without quotes is no quote. -/
theorem isQuote_eq_false_of_class {p : Char → Bool} (hdouble : p '"' = false)
    (hsingle : p '\'' = false) {c : Char} (hc : p c = true) : isQuote c = false := by
  rw [← Bool.not_eq_true]
  intro hquote
  rcases eq_of_isQuote hquote with rfl | rfl
  · rw [hdouble] at hc
    exact absurd hc (by decide)
  · rw [hsingle] at hc
    exact absurd hc (by decide)

/-- A word starts with a letter or an underscore. -/
theorem startsWord_eq_true_iff {c : Char} :
    startsWord c = true ↔
      ((65 ≤ c.toNat ∧ c.toNat ≤ 90) ∨ (97 ≤ c.toNat ∧ c.toNat ≤ 122)) ∨ c = '_' := by
  have hupper : c.isUpper = decide ('A'.val ≤ c.val ∧ c.val ≤ 'Z'.val) := rfl
  have hlower : c.isLower = (decide ('a'.val ≤ c.val) && decide (c.val ≤ 'z'.val)) := rfl
  have hletter : c.isAlpha = (c.isUpper || c.isLower) := rfl
  rw [startsWord, hletter, hupper, hlower]
  simp [UInt32.le_iff_toNat_le]

theorem startsWord_eq_false_of_isDigit {c : Char} (h : c.isDigit = true) :
    startsWord c = false := by
  rw [← Bool.not_eq_true, startsWord_eq_true_iff]
  intro hword
  have hdigit : 48 ≤ c.toNat ∧ c.toNat ≤ 57 := Char.isDigit_iff_toNat.1 h
  rcases hword with hletter | rfl
  · omega
  · exact absurd h (by decide)

/-- What starts a word goes on with one. -/
theorem continuesWord_of_startsWord {c : Char} (h : startsWord c = true) :
    continuesWord c = true := by
  simp only [startsWord, continuesWord, Char.isAlphanum, Bool.or_eq_true] at h ⊢
  rcases h with hletter | hunder
  · exact Or.inl (Or.inl hletter)
  · exact Or.inr hunder

/-- No item but a stray character or an operator starts with a blank or a
slash. -/
theorem isBlank_eq_false_of_class {c : Char}
    (h : isQuote c = true ∨ startsWord c = true ∨ c.isDigit = true) :
    Text.isBlank c = false ∧ c ≠ '/' := by
  constructor
  · rw [← Bool.not_eq_true]
    intro hblank
    simp only [Text.isBlank, Bool.or_eq_true, decide_eq_true_eq] at hblank
    rcases hblank with ((((rfl | rfl) | rfl) | rfl) | rfl) | rfl <;> exact absurd h (by decide)
  · intro hc
    rw [hc] at h
    exact absurd h (by decide)

/-! ## Shapes -/

/-- The shape of an item. -/
inductive WellFormed : Item → Prop where
  | operator {op : Operator} (hop : op ∈ Operator.table) : WellFormed (operator op)
  | word {c : Char} {letters : List Char} (hfirst : startsWord c = true)
      (hletters : ∀ d ∈ letters, continuesWord d = true) : WellFormed (word (c :: letters))
  /-- A word with a question mark at its end. -/
  | question {c : Char} {letters : List Char} (hfirst : startsWord c = true)
      (hletters : ∀ d ∈ letters, continuesWord d = true) :
      WellFormed (word (c :: (letters ++ ['?'])))
  | number {c : Char} {digits : List Char} (hfirst : c.isDigit = true)
      (hdigits : ∀ d ∈ digits, Number.continues d = true) : WellFormed (number (c :: digits))
  | quoted {quote : Char} {body : List Char} (hquote : isQuote quote = true)
      (hbody : quote ∉ body) : WellFormed (quoted quote body)
  | doc {body : List Char} (hbody : '\n' ∉ body) : WellFormed (doc ('/' :: '/' :: '/' :: body))
  | stray {c : Char} (hstray : isRecognised c = false) : WellFormed (stray c)
  | openQuoted {quote : Char} {body : List Char} (hquote : isQuote quote = true)
      (hbody : quote ∉ body) : WellFormed (openQuoted quote body)
  | openBlock {body : List Char} (hbody : ¬ ['*', '/'] <:+: body) : WellFormed (openBlock body)

/-- The text behind an item does not go on with it. -/
def Stops : Item → List Char → Prop
  /- No longer operator fits, and no comment starts with this one. -/
  | operator op, rest =>
    (∀ other ∈ Operator.table, other.symbol <+: op.symbol ++ rest →
        other.symbol.length ≤ op.symbol.length) ∧
      ¬ ['/', '/'] <+: op.symbol ++ rest ∧ ¬ ['/', '*'] <+: op.symbol ++ rest
  /- A question mark ends a word. -/
  | word text, rest => '?' ∈ text ∨ ∀ c ∈ rest.head?, continuesWord c = false ∧ c ≠ '?'
  | number _, rest => ∀ c ∈ rest.head?, Number.continues c = false
  | quoted _ _, _ => True
  | doc _, rest => ∀ c ∈ rest.head?, c = '\n'
  | stray _, _ => True
  | openQuoted _ _, rest => rest = []
  | openBlock _, rest => rest = []

/-- Nothing stands behind an item that lacks its end. -/
theorem eq_nil_of_isOpen {item : Item} (hopen : item.isOpen = true) {rest : List Char}
    (hstops : item.Stops rest) : rest = [] := by
  cases item with
  | openQuoted quote body => exact hstops
  | openBlock body => exact hstops
  | _ => exact absurd hopen (by simp [isOpen])

/-- So nothing goes on with it. -/
theorem stops_nil_of_isOpen {item : Item} (hopen : item.isOpen = true) : item.Stops [] := by
  cases item with
  | openQuoted quote body => rfl
  | openBlock body => rfl
  | _ => exact absurd hopen (by simp [isOpen])

/-! ## The cut keeps to the grammar -/

theorem cutQuoted_spec {quote : Char} (hquote : isQuote quote = true) (rest : List Char) :
    (cutQuoted quote rest).1.WellFormed ∧
      (cutQuoted quote rest).1.Stops (cutQuoted quote rest).2 := by
  unfold cutQuoted
  split
  · next hnil =>
    have hbody : quote ∉ rest := forall_bne_iff.1 (List.dropWhile_eq_nil_iff.1 hnil)
    exact ⟨.openQuoted hquote hbody, rfl⟩
  · exact ⟨.quoted hquote (not_mem_takeWhile_bne quote rest), trivial⟩

theorem cutWord_spec {c : Char} (hfirst : startsWord c = true) (rest : List Char) :
    (cutWord c rest).1.WellFormed ∧ (cutWord c rest).1.Stops (cutWord c rest).2 := by
  have hletters : ∀ d ∈ rest.takeWhile continuesWord, continuesWord d = true :=
    fun _ => List.mem_takeWhile_imp
  have hstop := head?_dropWhile_span continuesWord rest
  simp only [cutWord]
  split
  · exact ⟨.question hfirst hletters, Or.inl (by simp)⟩
  · next hmark =>
    refine ⟨.word hfirst hletters, Or.inr ?_⟩
    intro d hd
    refine ⟨hstop d hd, ?_⟩
    intro hq
    rcases hback : rest.dropWhile continuesWord with _ | ⟨e, after⟩
    · simp [hback] at hd
    · obtain rfl : e = d := by simpa [hback] using hd
      exact hmark after (by rw [hback, hq])

theorem cutNumber_spec {c : Char} (hfirst : c.isDigit = true) (rest : List Char) :
    (cutNumber c rest).1.WellFormed ∧ (cutNumber c rest).1.Stops (cutNumber c rest).2 :=
  ⟨.number hfirst fun _ => List.mem_takeWhile_imp, head?_dropWhile_span Number.continues rest⟩

theorem cutDoc_spec (body : List Char) :
    (cutDoc ('/' :: '/' :: '/' :: body)).1.WellFormed ∧
      (cutDoc ('/' :: '/' :: '/' :: body)).1.Stops (cutDoc ('/' :: '/' :: '/' :: body)).2 := by
  have hstop : ∀ c ∈ (body.dropWhile (· != '\n')).head?, c = '\n' := by
    intro c hc
    have h := head?_dropWhile_span (· != '\n') body c hc
    simpa using h
  have hcut : cutDoc ('/' :: '/' :: '/' :: body) =
      (doc ('/' :: '/' :: '/' :: body.takeWhile (· != '\n')), body.dropWhile (· != '\n')) := by
    simp [cutDoc]
  rw [hcut]
  exact ⟨.doc (not_mem_takeWhile_bne '\n' body), hstop⟩

theorem cutOperator_spec {c : Char} {rest : List Char}
    (hstray : Operator.starts c = false → isRecognised c = false)
    (hline : ¬ ['/', '/'] <+: c :: rest) (hblock : ¬ ['/', '*'] <+: c :: rest) :
    (cutOperator c rest).1.WellFormed ∧ (cutOperator c rest).1.Stops (cutOperator c rest).2 := by
  unfold cutOperator
  split
  · next op hfind =>
    obtain ⟨hop, hfits, hlongest⟩ := Operator.find?_eq_some_iff.1 hfind
    have htext : op.symbol ++ (c :: rest).drop op.symbol.length = c :: rest := by
      obtain ⟨after, hafter⟩ := hfits
      simp [← hafter]
    refine ⟨.operator hop, ?_⟩
    simp only [Stops, htext]
    exact ⟨hlongest, hline, hblock⟩
  · next hfind =>
    exact ⟨.stray (hstray (Operator.find?_eq_none_iff.1 hfind)), trivial⟩

/-- Behind a gap, what is cut off has the shape of an item, and the text
that is left does not go on with it. -/
theorem cut_spec {c : Char} {rest : List Char} (h : Trivia.head? (c :: rest) = none) :
    (cut c rest).1.WellFormed ∧ (cut c rest).1.Stops (cut c rest).2 := by
  obtain ⟨hblank, hline, hopen⟩ := Trivia.head?_eq_none_iff.1 h
  unfold cut
  split
  · next hquote => exact cutQuoted_spec hquote rest
  · next hquote =>
    split
    · next hword => exact cutWord_spec hword rest
    · next hword =>
      split
      · next hdigit => exact cutNumber_spec hdigit rest
      · next hdigit =>
        split
        · next hdoc =>
          obtain ⟨body, hbody⟩ := List.isPrefixOf_iff_prefix.1 hdoc
          rw [← hbody]
          exact cutDoc_spec body
        · next hdoc =>
          split
          · next hblock =>
            obtain ⟨body, hbody⟩ := List.isPrefixOf_iff_prefix.1 hblock
            obtain ⟨rfl, rfl⟩ : c = '/' ∧ rest = '*' :: body := by simpa using hbody.symm
            exact ⟨.openBlock (hopen body rfl), rfl⟩
          · next hblock =>
            have hstray : Operator.starts c = false → isRecognised c = false := by
              intro hstarts
              simp [isRecognised, hblank, hquote, hword, hdigit, hstarts]
            have hnoline : ¬ ['/', '/'] <+: c :: rest := fun hp =>
              hdoc (List.isPrefixOf_iff_prefix.2 (hline hp))
            have hnoblock : ¬ ['/', '*'] <+: c :: rest := fun hp =>
              hblock (List.isPrefixOf_iff_prefix.2 hp)
            exact cutOperator_spec hstray hnoline hnoblock

/-! ## Nothing else keeps to the grammar -/

theorem cut_quoted {quote : Char} (hquote : isQuote quote = true) {body : List Char}
    (hbody : quote ∉ body) (rest : List Char) :
    cut quote (body ++ quote :: rest) = (quoted quote body, rest) := by
  have hinside : ∀ c ∈ body, (c != quote) = true := forall_bne_iff.2 hbody
  have hback : ∀ c ∈ (quote :: rest).head?, (c != quote) = false := by simp
  rw [cut, if_pos hquote, cutQuoted, takeWhile_span hinside hback, dropWhile_span hinside hback]

theorem cut_openQuoted {quote : Char} (hquote : isQuote quote = true) {body : List Char}
    (hbody : quote ∉ body) : cut quote body = (openQuoted quote body, []) := by
  rw [cut, if_pos hquote, cutQuoted, List.dropWhile_eq_nil_iff.2 (forall_bne_iff.2 hbody)]

theorem cut_of_startsWord {c : Char} (hfirst : startsWord c = true) (rest : List Char) :
    cut c rest = cutWord c rest := by
  have hquote : isQuote c = false := isQuote_eq_false_of_class rfl rfl hfirst
  simp [cut, hquote, hfirst]

theorem cut_word {c : Char} (hfirst : startsWord c = true) {letters rest : List Char}
    (hletters : ∀ d ∈ letters, continuesWord d = true)
    (hstop : ∀ d ∈ rest.head?, continuesWord d = false ∧ d ≠ '?') :
    cut c (letters ++ rest) = (word (c :: letters), rest) := by
  have hback : ∀ d ∈ rest.head?, continuesWord d = false := fun d hd => (hstop d hd).1
  rw [cut_of_startsWord hfirst]
  simp only [cutWord, takeWhile_span hletters hback, dropWhile_span hletters hback]
  split
  · next after => exact absurd rfl (hstop '?' rfl).2
  · rfl

theorem cut_question {c : Char} (hfirst : startsWord c = true) {letters : List Char}
    (hletters : ∀ d ∈ letters, continuesWord d = true) (rest : List Char) :
    cut c (letters ++ '?' :: rest) = (word (c :: (letters ++ ['?'])), rest) := by
  have hback : ∀ d ∈ ('?' :: rest).head?, continuesWord d = false := by
    intro d hd
    obtain rfl : '?' = d := by simpa using hd
    decide
  rw [cut_of_startsWord hfirst]
  simp only [cutWord, takeWhile_span hletters hback, dropWhile_span hletters hback]
  rfl

theorem cut_number {c : Char} (hfirst : c.isDigit = true) {digits rest : List Char}
    (hdigits : ∀ d ∈ digits, Number.continues d = true)
    (hstop : ∀ d ∈ rest.head?, Number.continues d = false) :
    cut c (digits ++ rest) = (number (c :: digits), rest) := by
  have hquote : isQuote c = false := isQuote_eq_false_of_class (p := Char.isDigit) rfl rfl hfirst
  have hword : startsWord c = false := startsWord_eq_false_of_isDigit hfirst
  simp [cut, hquote, hword, hfirst, cutNumber, takeWhile_span hdigits hstop,
    dropWhile_span hdigits hstop]

theorem slash_classes :
    isQuote '/' = false ∧ startsWord '/' = false ∧ '/'.isDigit = false := by
  decide

theorem cut_doc {body rest : List Char} (hbody : '\n' ∉ body)
    (hstop : ∀ d ∈ rest.head?, d = '\n') :
    cut '/' ('/' :: '/' :: (body ++ rest)) = (doc ('/' :: '/' :: '/' :: body), rest) := by
  have hinside : ∀ c ∈ '/' :: '/' :: '/' :: body, (c != '\n') = true :=
    forall_bne_iff.2 (by simpa using hbody)
  have hback : ∀ c ∈ rest.head?, (c != '\n') = false := by
    intro c hc
    simp [hstop c hc]
  have htake := takeWhile_span hinside hback
  have hdrop := dropWhile_span hinside hback
  simp only [List.cons_append] at htake hdrop
  obtain ⟨hquote, hword, hdigit⟩ := slash_classes
  simp [cut, hquote, hword, hdigit, cutDoc, htake, hdrop]

theorem cut_openBlock (body : List Char) : cut '/' ('*' :: body) = (openBlock body, []) := by
  obtain ⟨hquote, hword, hdigit⟩ := slash_classes
  simp [cut, hquote, hword, hdigit]

/-- A text that is none of the other classes is cut as an operator. -/
theorem cut_of_other {c : Char} {rest : List Char} (hquote : isQuote c = false)
    (hword : startsWord c = false) (hdigit : c.isDigit = false)
    (hline : ¬ ['/', '/'] <+: c :: rest) (hblock : ¬ ['/', '*'] <+: c :: rest) :
    cut c rest = cutOperator c rest := by
  have hdoc : ['/', '/', '/'].isPrefixOf (c :: rest) = false := by
    rw [← Bool.not_eq_true, List.isPrefixOf_iff_prefix]
    exact fun hp => hline (List.IsPrefix.trans ⟨['/'], rfl⟩ hp)
  have hopen : ['/', '*'].isPrefixOf (c :: rest) = false := by
    rw [← Bool.not_eq_true, List.isPrefixOf_iff_prefix]
    exact hblock
  simp only [cut, hquote, hword, hdigit, hdoc, hopen, Bool.false_eq_true, if_false]

theorem cut_stray {c : Char} (hstray : isRecognised c = false) (rest : List Char) :
    cut c rest = (stray c, rest) := by
  simp only [isRecognised, Bool.or_eq_false_iff] at hstray
  obtain ⟨⟨⟨⟨-, hquote⟩, hword⟩, hdigit⟩, hstarts⟩ := hstray
  have hslash : c ≠ '/' := by
    intro hc
    rw [hc] at hstarts
    exact absurd hstarts (by decide +kernel)
  have hline : ¬ ['/', '/'] <+: c :: rest := by simp [hslash.symm]
  have hblock : ¬ ['/', '*'] <+: c :: rest := by simp [hslash.symm]
  rw [cut_of_other hquote hword hdigit hline hblock, cutOperator,
    Operator.find?_eq_none_iff.2 hstarts]

/-- The shape of an item and the text behind it fix what is cut off. -/
theorem cut_unique {item : Item} (hshape : item.WellFormed) {c : Char} {rest tail : List Char}
    (hstops : item.Stops tail) (htext : c :: rest = item.text ++ tail) :
    cut c rest = (item, tail) := by
  cases hshape with
  | @operator op hop =>
    obtain ⟨hlongest, hline, hblock⟩ := hstops
    simp only [text] at htext
    rw [← htext] at hlongest hline hblock
    have hfind : Operator.find? (c :: rest) = some op :=
      Operator.find?_eq_some_iff.2 ⟨hop, ⟨tail, htext.symm⟩, hlongest⟩
    have hstarts : Operator.starts c = true := by
      rw [← Bool.not_eq_false, ← @Operator.find?_eq_none_iff c rest, hfind]
      simp
    obtain ⟨-, hquote, hword, hdigit⟩ := Operator.classes_of_starts hstarts
    rw [cut_of_other hquote hword hdigit hline hblock, cutOperator, hfind]
    simp [htext]
  | word hfirst hletters =>
    obtain ⟨rfl, rfl⟩ := by simpa [text] using htext
    apply cut_word hfirst hletters
    rcases hstops with hmark | hstop
    · rcases List.mem_cons.1 hmark with rfl | hmem
      · exact absurd hfirst (by decide)
      · exact absurd (hletters '?' hmem) (by decide)
    · exact hstop
  | question hfirst hletters =>
    obtain ⟨rfl, rfl⟩ := by simpa [text] using htext
    exact cut_question hfirst hletters tail
  | number hfirst hdigits =>
    obtain ⟨rfl, rfl⟩ := by simpa [text] using htext
    exact cut_number hfirst hdigits hstops
  | quoted hquote hbody =>
    obtain ⟨rfl, rfl⟩ := by simpa [text] using htext
    exact cut_quoted hquote hbody tail
  | doc hbody =>
    obtain ⟨rfl, rfl⟩ := by simpa [text] using htext
    exact cut_doc hbody hstops
  | stray hstray =>
    obtain ⟨rfl, rfl⟩ := by simpa [text] using htext
    exact cut_stray hstray rest
  | openQuoted hquote hbody =>
    obtain rfl : tail = [] := hstops
    obtain ⟨rfl, rfl⟩ := by simpa [text] using htext
    exact cut_openQuoted hquote hbody
  | openBlock hbody =>
    obtain rfl : tail = [] := hstops
    obtain ⟨rfl, rfl⟩ := by simpa [text] using htext
    exact cut_openBlock _

theorem text_ne_nil_of_wellFormed {item : Item} (hshape : item.WellFormed) : item.text ≠ [] := by
  cases hshape with
  | operator hop => exact Operator.symbol_ne_nil _ hop
  | _ => simp [text]

theorem head?_eq_none_of_ne_slash {c : Char} (h : Text.isBlank c = false ∧ c ≠ '/')
    (rest : List Char) : Trivia.head? (c :: rest) = none := by
  refine Trivia.head?_eq_none_iff.2 ⟨h.1, ?_, ?_⟩
  · intro hline
    exact absurd (List.cons_prefix_cons.1 hline).1.symm h.2
  · intro body hbody
    exact absurd (List.cons.inj hbody).1 h.2

/-- A gap ends in front of an item. -/
theorem head?_eq_none_of_wellFormed {item : Item} (hshape : item.WellFormed) {tail : List Char}
    (hstops : item.Stops tail) : Trivia.head? (item.text ++ tail) = none := by
  cases hshape with
  | @operator op hop =>
    obtain ⟨-, hline, hblock⟩ := hstops
    rcases hsymbol : op.symbol with _ | ⟨c, symbol⟩
    · exact absurd hsymbol (Operator.symbol_ne_nil op hop)
    · have hstarts : Operator.starts c = true :=
        Operator.starts_eq_true_iff.2 ⟨op, hop, by simp [hsymbol]⟩
      simp only [text, hsymbol, List.cons_append] at hline hblock ⊢
      refine Trivia.head?_eq_none_iff.2 ⟨(Operator.classes_of_starts hstarts).1, ?_, ?_⟩
      · intro hp
        exact absurd hp hline
      · intro body hbody
        rw [hbody] at hblock
        exact absurd ⟨body, rfl⟩ hblock
  | word hfirst _ | question hfirst _ =>
    exact head?_eq_none_of_ne_slash (isBlank_eq_false_of_class (Or.inr (Or.inl hfirst))) _
  | number hfirst _ =>
    exact head?_eq_none_of_ne_slash (isBlank_eq_false_of_class (Or.inr (Or.inr hfirst))) _
  | quoted hquote _ | openQuoted hquote _ =>
    exact head?_eq_none_of_ne_slash (isBlank_eq_false_of_class (Or.inl hquote)) _
  | doc _ => exact Trivia.head?_eq_none_iff.2 ⟨by decide, by simp, by simp⟩
  | stray hstray =>
    simp only [isRecognised, Bool.or_eq_false_iff] at hstray
    refine head?_eq_none_of_ne_slash ⟨hstray.1.1.1.1, ?_⟩ _
    intro hc
    rw [hc] at hstray
    exact absurd hstray.2 (by decide +kernel)
  | openBlock hbody =>
    obtain rfl : tail = [] := hstops
    refine Trivia.head?_eq_none_iff.2 ⟨by decide, by simp, ?_⟩
    intro inner hinner
    obtain rfl := by simpa using hinner
    exact hbody

/-- An item starts with a character that separates nothing. -/
theorem exists_head_of_wellFormed {item : Item} (hshape : item.WellFormed) {tail : List Char}
    (hstops : item.Stops tail) : ∃ c rest, item.text = c :: rest ∧ Text.isBlank c = false := by
  obtain ⟨c, rest, htext⟩ := List.exists_cons_of_ne_nil (text_ne_nil_of_wellFormed hshape)
  have hnone := head?_eq_none_of_wellFormed hshape hstops
  rw [htext, List.cons_append] at hnone
  exact ⟨c, rest, htext, (Trivia.head?_eq_none_iff.1 hnone).1⟩

end Item

end SharpLexer
