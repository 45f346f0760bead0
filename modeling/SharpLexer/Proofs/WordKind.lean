import SharpLexer.Proofs.Place

/-!
# Words and their kinds

A word is the longest run of letters, digits and underscores, with one question mark
behind it where one stands there.  Three tables say what it means: a filter of reserved
words comes first, then types, then keywords.

* The tables fit together.  A type and a keyword is reserved, no keyword is a type, and
  each keyword is listed once.
* `Word.Meaning` says what a word means with neither a filter nor a priority.
  `Word.kind_eq_iff` says that the kind of a word is just that, so no entry of a table
  is hidden behind another.
* `Item.wordAhead` is the word at the front of a text, and `Item.cutWord_eq` says that
  it is the one that is cut off.
* `word_of_ofSource` puts these together for every run.
-/

namespace SharpLexer

open Trivia (ClosedGap gapText)

namespace Word

/-! ## The tables -/

/-- Every type passes the filter. -/
theorem mem_reserved_of_type : ∀ key ∈ types, key ∈ reserved := by
  decide +kernel

/-- So does every keyword. -/
theorem mem_reserved_of_keyword : ∀ entry ∈ keywords, entry.1 ∈ reserved := by
  decide +kernel

/-- No keyword gives way to a type. -/
theorem not_type_of_keyword : ∀ entry ∈ keywords, entry.1 ∉ types := by
  decide +kernel

/-- Every keyword is listed with one kind. -/
theorem kind_unique : ∀ a ∈ keywords, ∀ b ∈ keywords, a.1 = b.1 → a = b := by
  decide +kernel

/-- No keyword has the kind of a type or of a name. -/
theorem kind_of_keyword_ne :
    ∀ entry ∈ keywords, entry.2 ≠ .typeWord ∧ entry.2 ≠ .identifier := by
  decide +kernel

/-- No reserved word holds a question mark. -/
theorem question_not_mem : ∀ key ∈ reserved, '?' ∉ key.toList := by
  decide +kernel

/-! ## The meaning of a word -/

/-- What a word means: a type, a keyword or a name.  The rules come in no order, and
none of them asks whether the word is reserved. -/
inductive Meaning (word : String) : Kind → Prop where
  | type (htype : fold word ∈ types) : Meaning word .typeWord
  | keyword {kind : Kind} (hkey : (fold word, kind) ∈ keywords) : Meaning word kind
  | name (htype : fold word ∉ types) (hkey : fold word ∉ keywords.map Prod.fst) :
      Meaning word .identifier

section Kind

variable {word : String}

theorem isReserved_iff : isReserved word = true ↔ fold word ∈ reserved := by
  simp [isReserved]

theorem isType_iff : isType word = true ↔ fold word ∈ types := by
  simp [isType]

theorem kind_of_type (htype : fold word ∈ types) : kind word = .typeWord := by
  have hreserved := isReserved_iff.2 (mem_reserved_of_type _ htype)
  simp [kind, lookup?, hreserved, isType_iff.2 htype]

theorem kind_of_not_type (hreserved : fold word ∈ reserved) (htype : fold word ∉ types) :
    kind word = (keywords.lookup (fold word)).getD .identifier := by
  rw [kind, lookup?, if_pos (isReserved_iff.2 hreserved), if_neg (mt isType_iff.1 htype)]
  rfl

theorem kind_of_keyword {k : Kind} (hkey : (fold word, k) ∈ keywords) : kind word = k := by
  rw [kind_of_not_type (mem_reserved_of_keyword _ hkey) (not_type_of_keyword _ hkey)]
  cases hfound : keywords.lookup (fold word) with
  | none => exact absurd (List.lookup_eq_none_iff.1 hfound _ hkey) (by simp)
  | some found =>
    obtain ⟨front, back, htable, -⟩ := List.lookup_eq_some_iff.1 hfound
    have hmem : (fold word, found) ∈ keywords := by simp [htable]
    exact congrArg Prod.snd (kind_unique _ hmem _ hkey rfl)

theorem kind_of_name (htype : fold word ∉ types) (hkey : fold word ∉ keywords.map Prod.fst) :
    kind word = .identifier := by
  by_cases hreserved : fold word ∈ reserved
  · have hnone : keywords.lookup (fold word) = none := by
      rw [List.lookup_eq_none_iff]
      intro entry hentry
      have hne : fold word ≠ entry.1 := fun heq => hkey (List.mem_map.2 ⟨entry, hentry, heq.symm⟩)
      simpa using hne
    rw [kind_of_not_type hreserved htype, hnone]
    rfl
  · rw [kind, lookup?, if_neg (mt isReserved_iff.1 hreserved)]
    rfl

/-- A word has at most one meaning, which is its kind. -/
theorem Meaning.kind_eq {k : Kind} (h : Meaning word k) : kind word = k := by
  cases h with
  | type htype => exact kind_of_type htype
  | keyword hkey => exact kind_of_keyword hkey
  | name htype hkey => exact kind_of_name htype hkey

/-- A word means what its kind says. -/
theorem meaning_kind (word : String) : Meaning word (kind word) := by
  by_cases htype : fold word ∈ types
  · rw [kind_of_type htype]
    exact .type htype
  · by_cases hkey : fold word ∈ keywords.map Prod.fst
    · obtain ⟨⟨key, k⟩, hentry, rfl⟩ := List.mem_map.1 hkey
      rw [kind_of_keyword hentry]
      exact .keyword hentry
    · rw [kind_of_name htype hkey]
      exact .name htype hkey

theorem kind_eq_iff {k : Kind} : kind word = k ↔ Meaning word k := by
  constructor
  · rintro rfl
    exact meaning_kind word
  · exact Meaning.kind_eq

theorem kind_eq_typeWord_iff : kind word = .typeWord ↔ fold word ∈ types := by
  rw [kind_eq_iff]
  constructor
  · intro hmeaning
    cases hmeaning with
    | type htype => exact htype
    | keyword hkey => exact absurd rfl (kind_of_keyword_ne _ hkey).1
  · exact .type

theorem kind_eq_identifier_iff :
    kind word = .identifier ↔ fold word ∉ types ∧ fold word ∉ keywords.map Prod.fst := by
  rw [kind_eq_iff]
  constructor
  · intro hmeaning
    cases hmeaning with
    | keyword hkey => exact absurd rfl (kind_of_keyword_ne _ hkey).2
    | name htype hkey => exact ⟨htype, hkey⟩
  · rintro ⟨htype, hkey⟩
    exact .name htype hkey

/-- A word has the kind of a keyword just where the table says so. -/
theorem kind_eq_keyword_iff {k : Kind} (hk : k ∈ keywords.map Prod.snd) :
    kind word = k ↔ (fold word, k) ∈ keywords := by
  rw [kind_eq_iff]
  constructor
  · intro hmeaning
    obtain ⟨entry, hentry, hkind⟩ := List.mem_map.1 hk
    cases hmeaning with
    | type _ => exact absurd hkind (kind_of_keyword_ne _ hentry).1
    | keyword hkey => exact hkey
    | name _ _ => exact absurd hkind (kind_of_keyword_ne _ hentry).2
  · exact .keyword

/-- A word with a question mark is a name. -/
theorem kind_of_question (hmark : '?' ∈ word.toList) : kind word = .identifier := by
  have hfold : '?' ∈ (fold word).toList := by
    rw [fold, String.toList_ofList]
    exact List.mem_map.2 ⟨'?', hmark, rfl⟩
  have hfree : fold word ∉ reserved := fun hreserved => question_not_mem _ hreserved hfold
  rw [kind, lookup?, if_neg (mt isReserved_iff.1 hfree)]
  rfl

end Kind

end Word

namespace Item

/-! ## The word ahead -/

/-- The word at the front of a text: the longest run of letters, digits and
underscores, with one question mark behind it where one stands there. -/
def wordAhead (text : List Char) : List Char :=
  text.takeWhile continuesWord ++
    if (text.dropWhile continuesWord).head? = some '?' then ['?'] else []

variable {first : Char} (hfirst : startsWord first = true) (rest : List Char)
include hfirst

/-- The word that is cut off is the word ahead. -/
theorem cutWord_eq :
    cutWord first rest =
      (word (wordAhead (first :: rest)),
        (first :: rest).drop (wordAhead (first :: rest)).length) := by
  have hletter := continuesWord_of_startsWord hfirst
  have hword : (cutWord first rest).1 = word (wordAhead (first :: rest)) := by
    simp only [cutWord, wordAhead, List.takeWhile_cons_of_pos hletter,
      List.dropWhile_cons_of_pos hletter]
    split
    · next after hback => simp [hback]
    · next hnone =>
      have hno : (rest.dropWhile continuesWord).head? ≠ some '?' := by
        intro hmark
        obtain ⟨after, hafter⟩ := List.head?_eq_some_iff.1 hmark
        exact hnone after hafter
      simp [hno]
  -- the text behind the word is what the two texts leave
  have htext := congrArg (List.drop (wordAhead (first :: rest)).length)
    (text_append_cutWord first rest)
  rw [hword, text, List.drop_left] at htext
  exact Prod.ext hword htext

theorem wordAhead_wellFormed : (word (wordAhead (first :: rest))).WellFormed ∧
    (word (wordAhead (first :: rest))).Stops
      ((first :: rest).drop (wordAhead (first :: rest)).length) := by
  have hspec := cutWord_spec hfirst rest
  rw [cutWord_eq hfirst rest] at hspec
  exact hspec

theorem wordAhead_append_drop : (word (wordAhead (first :: rest))).text ++
    (first :: rest).drop (wordAhead (first :: rest)).length = first :: rest := by
  have htext := text_append_cutWord first rest
  rw [cutWord_eq hfirst rest] at htext
  exact htext

end Item

/-- Wherever a run comes to a letter or an underscore behind a gap, the word ahead is
the lexeme as it is written.  In lower case it is looked up in the tables: the kind is
that of a type just where the table of types holds it, that of a keyword just where the
table of keywords gives it, and that of a name where neither does. -/
theorem word_of_ofSource {source : String} {opened : Reading Unit}
    (h : Cursor.ofSource source = .ok opened) (n : Nat) {gap : List Trivia}
    (hgap : ClosedGap gap) {first : Char} {rest : List Char}
    (hfirst : Item.startsWord first = true)
    (hunread : (opened.cursor.later n).unread = gapText gap ++ first :: rest) :
    let lexeme := Item.wordAhead (first :: rest)
    let key := Word.fold (String.ofList lexeme)
    let place := Position.ofOffset source.toList
      (source.toList.length - (first :: rest).length)
    ∃ kind, opened.cursor.outcomeAt n = .ok ⟨kind, String.ofList lexeme, place, none⟩ ∧
      (opened.cursor.later (n + 1)).unread = (first :: rest).drop lexeme.length ∧
      (kind = .typeWord ↔ key ∈ Word.types) ∧
      (∀ k ∈ Word.keywords.map Prod.snd, kind = k ↔ (key, k) ∈ Word.keywords) ∧
      (kind = .identifier ↔ key ∉ Word.types ∧ key ∉ Word.keywords.map Prod.fst) ∧
      ('?' ∈ lexeme → kind = .identifier) := by
  intro lexeme key place
  obtain ⟨hshape, hstops⟩ := Item.wordAhead_wellFormed hfirst rest
  have htext := Item.wordAhead_append_drop hfirst rest
  rw [← htext] at hunread
  obtain ⟨hvalue, htail⟩ := Cursor.outcomeAt_of_item h n hgap hshape hstops hunread
  rw [htext, Item.outcome_word] at hvalue
  refine ⟨Word.kind (String.ofList lexeme), hvalue, htail, Word.kind_eq_typeWord_iff,
    fun _ => Word.kind_eq_keyword_iff, Word.kind_eq_identifier_iff, ?_⟩
  intro hmark
  exact Word.kind_of_question (by rwa [String.toList_ofList])

/-- A type, a name that starts like it, and a keyword, none of them in lower case. -/
def mixedWordsSource : String := "Int Int? /**/wHiLe_ WHILE?while"

/-- The second word of `mixedWordsSource` takes in its question mark and is a name. -/
theorem word_of_mixedWordsSource :
    Cursor.ofSource mixedWordsSource =
        .ok ⟨(), [.opened 31], Cursor.start mixedWordsSource.toList⟩ ∧
      (Cursor.start mixedWordsSource.toList).outcomeAt 1 =
        .ok ⟨.identifier, "Int?", ⟨1, 5⟩, none⟩ := by
  have hopened : Cursor.ofSource mixedWordsSource =
      .ok ⟨(), [.opened 31], Cursor.start mixedWordsSource.toList⟩ :=
    Cursor.ofSource_eq_ok_iff.2 ⟨by decide, rfl⟩
  have hgap : ClosedGap [.blank ' '] := by
    rw [Trivia.closedGap_cons]
    exact ⟨by simp [Trivia.WellFormed, Text.isBlank], rfl, Trivia.closedGap_nil⟩
  have hunread : ((Cursor.start mixedWordsSource.toList).later 1).unread =
      gapText [.blank ' '] ++ 'I' :: "nt? /**/wHiLe_ WHILE?while".toList := by
    decide +kernel
  obtain ⟨kind, hvalue, -, -, -, -, hmark⟩ :=
    word_of_ofSource hopened 1 hgap (by decide) hunread
  obtain rfl := hmark (by decide +kernel)
  refine ⟨hopened, ?_⟩
  rw [hvalue]
  decide +kernel

end SharpLexer
