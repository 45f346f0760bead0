import SharpLexer.Proofs.Place
import SharpLexer.Proofs.Window.Items

/-!
# Runs of operators

Operators may stand side by side with nothing between them.  A reader takes the longest
symbol of the table that begins the text, then the longest one that begins what is left,
and so on.  A comment is no operator, although it starts like one.

* `Operator.sighted` decides on an operator by two characters of lookahead, without the
  table.  `Operator.sighted_eq_find?` says that the table decides in the same way.
* `Operator.Longest` is the longest symbol at the front of a text, and `Operator.Greedy`
  a row of them.  `Operator.exists_greedy` finds such a row for every run of operator
  characters, and `Operator.Greedy.eq` says that there is one only.
* `Cursor.outcomeAt_of_longest` is about one operator, and `Cursor.outcomeAt_of_greedy`
  about a row, by induction on it.
* `operator_of_ofSource` puts these together for every run.
-/

namespace SharpLexer

open Trivia (ClosedGap gapText)

namespace Operator

/-! ## Two characters of lookahead -/

/-- The operator that starts with the first of three characters.  Most first characters
need no lookahead, six need the next character, and two the one behind it as well. -/
def sighted (first second third : Char) : Option Operator :=
  match first with
  | ';' => some ⟨[';'], .semicolon⟩
  | '(' => some ⟨['('], .leftParen⟩
  | ')' => some ⟨[')'], .rightParen⟩
  | '{' => some ⟨['{'], .leftBrace⟩
  | '}' => some ⟨['}'], .rightBrace⟩
  | '[' => some ⟨['['], .leftBracket⟩
  | ']' => some ⟨[']'], .rightBracket⟩
  | '#' => some ⟨['#'], .hash⟩
  | '*' => some ⟨['*'], .star⟩
  | '?' => some ⟨['?'], .question⟩
  | '^' => some ⟨['^'], .xor⟩
  | ':' => some ⟨[':'], .colon⟩
  | ',' => some ⟨[','], .comma⟩
  | '%' => some ⟨['%'], .percent⟩
  | '.' => some ⟨['.'], .dot⟩
  | '/' => some ⟨['/'], .slash⟩
  | '=' =>
    match second with
    | '=' => some ⟨['=', '='], .equal⟩
    | '>' => some ⟨['=', '>'], .arrow⟩
    | _ => some ⟨['='], .assign⟩
  | '<' =>
    match second, third with
    | '=', _ => some ⟨['<', '='], .lessEqual⟩
    | '<', '<' => some ⟨['<', '<', '<'], .shiftLeftAssign⟩
    | '<', _ => some ⟨['<', '<'], .shiftLeft⟩
    | _, _ => some ⟨['<'], .less⟩
  | '>' =>
    match second, third with
    | '=', _ => some ⟨['>', '='], .greaterEqual⟩
    | '>', '>' => some ⟨['>', '>', '>'], .shiftRightAssign⟩
    | '>', _ => some ⟨['>', '>'], .shiftRight⟩
    | _, _ => some ⟨['>'], .greater⟩
  | '&' =>
    match second with
    | '&' => some ⟨['&', '&'], .andAnd⟩
    | _ => some ⟨['&'], .ampersand⟩
  | '|' =>
    match second with
    | '|' => some ⟨['|', '|'], .orOr⟩
    | _ => some ⟨['|'], .pipe⟩
  | '+' =>
    match second with
    | '+' => some ⟨['+', '+'], .increment⟩
    | '=' => some ⟨['+', '='], .plusAssign⟩
    | _ => some ⟨['+'], .plus⟩
  | '-' =>
    match second with
    | '-' => some ⟨['-', '-'], .decrement⟩
    | '=' => some ⟨['-', '='], .minusAssign⟩
    | _ => some ⟨['-'], .minus⟩
  | '!' =>
    match second with
    | '=' => some ⟨['!', '='], .notEqual⟩
    | _ => some ⟨['!'], .bang⟩
  | _ => none

/-- The symbols that start with the first character of a text are all that matter. -/
theorem find?_eq_filter (c : Char) (rest : List Char) :
    find? (c :: rest) = (table.filter (some c == ·.symbol.head?)).find?
      (·.symbol.isPrefixOf (c :: rest)) := by
  rw [find?, List.find?_filter]
  apply List.find?_congr
  intro op hop
  obtain ⟨d, symbol, hsymbol⟩ := List.exists_cons_of_ne_nil (symbol_ne_nil op hop)
  by_cases hd : c = d
  · rw [hsymbol, hd]
    simp only [List.head?_cons, beq_self_eq_true, true_and, Bool.decide_eq_true]
  · simp [hsymbol, List.isPrefixOf, hd, Ne.symm hd]

/-- The lookahead decides as the table does. -/
theorem sighted_eq_find? (first second third : Char) :
    sighted first second third = find? [first, second, third] := by
  rw [find?_eq_filter]
  unfold sighted
  split
  case h_25 _ =>
    have hnone : table.filter (some first == ·.symbol.head?) = [] := by
      simp_all [table]
    rw [hnone]
    rfl
  -- a symbol of its own, or a few of which the next two characters choose one
  all_goals first
    | rfl
    | split <;> simp_all [table, List.filter] <;> grind

/-! ## The longest symbol -/

/-- The operator is the longest of the table that begins the text. -/
structure Longest (op : Operator) (text : List Char) : Prop where
  mem : op ∈ table
  fits : op.symbol <+: text
  longest : ∀ other ∈ table, other.symbol <+: text → other.symbol.length ≤ op.symbol.length

section Longest

variable {op : Operator} {text : List Char}

theorem longest_iff : op.Longest text ↔ find? text = some op := by
  rw [find?_eq_some_iff]
  exact ⟨fun h => ⟨h.mem, h.fits, h.longest⟩, fun h => ⟨h.1, h.2.1, h.2.2⟩⟩

/-- There is at most one. -/
theorem Longest.eq (h : op.Longest text) {other : Operator} (hother : other.Longest text) :
    other = op :=
  Option.some.inj ((longest_iff.1 hother).symm.trans (longest_iff.1 h))

/-- There is one where an operator can start. -/
theorem exists_longest {c : Char} (hc : starts c = true) (rest : List Char) :
    ∃ op : Operator, op.Longest (c :: rest) := by
  cases hfind : find? (c :: rest) with
  | none =>
    rw [find?_eq_none_iff.1 hfind] at hc
    exact absurd hc (by decide)
  | some op => exact ⟨op, longest_iff.2 hfind⟩

theorem starts_of_mem : ∀ op ∈ table, ∀ c ∈ op.symbol, starts c = true := by
  have hall : ∀ op ∈ table, op.symbol.all starts = true := by decide +kernel
  intro op hop
  exact List.all_eq_true.1 (hall op hop)

/-- No symbol reaches past the end of a run of operator characters. -/
theorem prefix_of_prefix_append {mark run rest : List Char}
    (hmark : ∀ c ∈ mark, starts c = true) (hrest : ∀ c ∈ rest.head?, starts c = false)
    (hfits : mark <+: run ++ rest) : mark <+: run := by
  rcases rest with _ | ⟨d, rest⟩
  · rwa [List.append_nil] at hfits
  · have hd : d ∉ mark := by
      intro hmem
      have hstarts := hmark d hmem
      rw [hrest d rfl] at hstarts
      exact absurd hstarts (by decide)
    exact prefix_of_prefix_append_cons hd hfits

/-- So the text behind a run has no say in which symbol is the longest. -/
theorem Longest.append (h : op.Longest text) {rest : List Char}
    (hrest : ∀ c ∈ rest.head?, starts c = false) : op.Longest (text ++ rest) where
  mem := h.mem
  fits := h.fits.trans (List.prefix_append text rest)
  longest := by
    intro other hother hfits
    exact h.longest other hother
      (prefix_of_prefix_append (starts_of_mem other hother) hrest hfits)

end Longest

/-! ## Rows of longest symbols -/

/-- The characters of a row of operators. -/
def spelled (ops : List Operator) : List Char := ops.flatMap symbol

/-- The row cuts a run into operators, each the longest that begins what is left. -/
inductive Greedy : List Char → List Operator → Prop where
  | nil : Greedy [] []
  | cons {run rest : List Char} {op : Operator} {ops : List Operator} (hop : op.Longest run)
      (hrun : run = op.symbol ++ rest) (hrest : Greedy rest ops) : Greedy run (op :: ops)

theorem Greedy.run_eq {run : List Char} {ops : List Operator} (h : Greedy run ops) :
    run = spelled ops := by
  induction h with
  | nil => rfl
  | @cons run rest op ops hop hrun hrest ih =>
    rw [hrun, ih]
    rfl

/-- A run is cut in one way only. -/
theorem Greedy.eq {run : List Char} {ops : List Operator} (h : Greedy run ops)
    {others : List Operator} (hothers : Greedy run others) : others = ops := by
  induction h generalizing others with
  | nil =>
    cases hothers with
    | nil => rfl
    | cons hop hrun hrest =>
      exact absurd (List.append_eq_nil_iff.1 hrun.symm).1 (symbol_ne_nil _ hop.mem)
  | @cons run rest op ops hop hrun hrest ih =>
    cases hothers with
    | nil => exact absurd (List.append_eq_nil_iff.1 hrun.symm).1 (symbol_ne_nil _ hop.mem)
    | cons hop' hrun' hrest' =>
      obtain rfl := hop.eq hop'
      obtain rfl := List.append_cancel_left (hrun'.symm.trans hrun)
      rw [ih hrest']

/-- Every run of operator characters can be cut. -/
theorem exists_greedy {run : List Char} (hrun : ∀ c ∈ run, starts c = true) :
    ∃ ops, Greedy run ops := by
  induction hlength : run.length using Nat.strongRecOn generalizing run with
  | ind length ih =>
    subst hlength
    rcases run with _ | ⟨c, run⟩
    · exact ⟨[], .nil⟩
    · obtain ⟨op, hop⟩ := exists_longest (hrun c (by simp)) run
      obtain ⟨rest, hrest⟩ := hop.fits
      have hpos : 0 < op.symbol.length := List.length_pos_iff.2 (symbol_ne_nil op hop.mem)
      have hshorter : rest.length < (c :: run).length := by
        rw [← hrest, List.length_append]
        omega
      have hstarts : ∀ d ∈ rest, starts d = true := by
        intro d hd
        apply hrun d
        rw [← hrest]
        exact List.mem_append_right _ hd
      obtain ⟨ops, hops⟩ := ih _ hshorter hstarts rfl
      exact ⟨op :: ops, .cons hop hrest.symm hops⟩

end Operator

/-! ## Comments among operators -/

/-- A comment of either form, or documentation, stands at the front of the text. -/
def Trivia.OpensComment (text : List Char) : Prop :=
  ['/', '/'] <+: text ∨ ['/', '*'] <+: text

theorem Trivia.opensComment_of_append {run rest : List Char}
    (hrest : ∀ c ∈ rest.head?, Operator.starts c = false)
    (h : OpensComment (run ++ rest)) : OpensComment run := by
  have hslash : ∀ c ∈ ['/', '/'], Operator.starts c = true := List.all_eq_true.1 (by decide +kernel)
  have hstar : ∀ c ∈ ['/', '*'], Operator.starts c = true := List.all_eq_true.1 (by decide +kernel)
  rcases h with hline | hblock
  · exact Or.inl (Operator.prefix_of_prefix_append hslash hrest hline)
  · exact Or.inr (Operator.prefix_of_prefix_append hstar hrest hblock)

/-! ## Reading operators -/

namespace Cursor

variable {source : String} {opened : Reading Unit} (h : ofSource source = .ok opened)
include h

/-- Where no comment opens, the longest operator is read. -/
theorem outcomeAt_of_longest (n : Nat) {gap : List Trivia} (hgap : ClosedGap gap)
    {op : Operator} {tail : List Char} (hop : op.Longest (op.symbol ++ tail))
    (hcomment : ¬ Trivia.OpensComment (op.symbol ++ tail))
    (hunread : (opened.cursor.later n).unread = gapText gap ++ (op.symbol ++ tail)) :
    opened.cursor.outcomeAt n =
        .ok (.plain op.kind op.symbol (Position.ofOffset source.toList
          (source.toList.length - (op.symbol ++ tail).length))) ∧
      (opened.cursor.later (n + 1)).unread = tail := by
  have hstops : (Item.operator op).Stops tail :=
    ⟨hop.longest, fun hline => hcomment (Or.inl hline), fun hblock => hcomment (Or.inr hblock)⟩
  exact outcomeAt_of_item h n hgap (.operator hop.mem) hstops hunread

/-- A run is read one operator after the other, up to the character behind it. -/
theorem outcomeAt_of_greedy {run : List Char} {ops : List Operator}
    (hops : Operator.Greedy run ops) {rest : List Char}
    (hrest : ∀ c ∈ rest.head?, Operator.starts c = false)
    (hcomments : ∀ back, back <:+ ops → ¬ Trivia.OpensComment (Operator.spelled back))
    (n : Nat) {gap : List Trivia} (hgap : ClosedGap gap) (hfirst : run ≠ [] ∨ gap = [])
    (hunread : (opened.cursor.later n).unread = gapText gap ++ (run ++ rest)) :
    (∀ front op back, ops = front ++ op :: back →
        opened.cursor.outcomeAt (n + front.length) =
          .ok (.plain op.kind op.symbol (Position.ofOffset source.toList
            (source.toList.length - (Operator.spelled (op :: back) ++ rest).length)))) ∧
      (opened.cursor.later (n + ops.length)).unread = rest := by
  induction hops generalizing n gap with
  | nil =>
    obtain rfl : gap = [] := hfirst.resolve_left fun hne => hne rfl
    exact ⟨by simp, hunread⟩
  | @cons run tail op ops hop hrun hrow ih =>
    have hspelled : run = Operator.spelled (op :: ops) :=
      (Operator.Greedy.cons hop hrun hrow).run_eq
    have htext : run ++ rest = op.symbol ++ (tail ++ rest) := by
      rw [hrun, List.append_assoc]
    have hlongest := hop.append hrest
    have hcomment : ¬ Trivia.OpensComment (run ++ rest) := by
      intro hopens
      have hrunOpens := Trivia.opensComment_of_append hrest hopens
      rw [hspelled] at hrunOpens
      exact hcomments (op :: ops) List.suffix_rfl hrunOpens
    rw [htext] at hlongest hcomment hunread
    obtain ⟨hvalue, htail⟩ := outcomeAt_of_longest h n hgap hlongest hcomment hunread
    have hbehind : ∀ back, back <:+ ops → ¬ Trivia.OpensComment (Operator.spelled back) := by
      intro back hback
      exact hcomments back (hback.trans (List.suffix_cons op ops))
    obtain ⟨hvalues, hlast⟩ := ih hbehind (n + 1) Trivia.closedGap_nil (Or.inr rfl) htail
    constructor
    · intro front other back hparts
      rcases front with _ | ⟨first, front⟩
      · obtain ⟨rfl, rfl⟩ : op = other ∧ ops = back := by simpa using hparts
        rw [← hspelled, htext]
        exact hvalue
      · obtain ⟨rfl, rfl⟩ : op = first ∧ ops = front ++ other :: back := by
          simpa using hparts
        have hcount : n + (op :: front).length = n + 1 + front.length := by
          rw [List.length_cons]
          omega
        rw [hcount]
        exact hvalues front other back rfl
    · have hcount : n + (op :: ops).length = n + 1 + ops.length := by
        rw [List.length_cons]
        omega
      rw [hcount]
      exact hlast

end Cursor

/-- Wherever a run comes to an operator character behind a gap, and no comment opens
there, the longest symbol of the table is the token, and as many characters are read as
it has.  Two characters of lookahead are enough to tell it.  So a run of operator
characters is cut into a row of longest symbols, in the one way there is, as long as no
comment opens where one of them ends. -/
theorem operator_of_ofSource {source : String} {opened : Reading Unit}
    (h : Cursor.ofSource source = .ok opened) (n : Nat) {gap : List Trivia}
    (hgap : ClosedGap gap) :
    (∀ first rest, Operator.starts first = true → ¬ Trivia.OpensComment (first :: rest) →
        (opened.cursor.later n).unread = gapText gap ++ first :: rest →
        ∃ op : Operator, op.Longest (first :: rest) ∧
          (∀ other : Operator, other.Longest (first :: rest) → other = op) ∧
          Operator.sighted first (rest.head?.getD Cursor.frame)
            (((rest ++ [Cursor.frame])[1]?).getD Cursor.nothing) = some op ∧
          opened.cursor.outcomeAt n =
            .ok ⟨op.kind, String.ofList op.symbol, Position.ofOffset source.toList
              (source.toList.length - (first :: rest).length), none⟩ ∧
          (opened.cursor.later (n + 1)).unread = (first :: rest).drop op.symbol.length) ∧
      ∀ run rest, run ≠ [] → (∀ c ∈ run, Operator.starts c = true) →
        (∀ c ∈ rest.head?, Operator.starts c = false) →
        (opened.cursor.later n).unread = gapText gap ++ (run ++ rest) →
        ∃ ops, Operator.Greedy run ops ∧ (∀ others, Operator.Greedy run others → others = ops) ∧
          ((∀ back, back <:+ ops → ¬ Trivia.OpensComment (Operator.spelled back)) →
            (∀ front op back, ops = front ++ op :: back →
              opened.cursor.outcomeAt (n + front.length) =
                .ok ⟨op.kind, String.ofList op.symbol, Position.ofOffset source.toList
                  (source.toList.length - (Operator.spelled (op :: back) ++ rest).length),
                  none⟩) ∧
            (opened.cursor.later (n + ops.length)).unread = rest) := by
  constructor
  · intro first rest hfirst hcomment hunread
    obtain ⟨op, hop⟩ := Operator.exists_longest hfirst rest
    refine ⟨op, hop, fun other hother => hop.eq hother, ?_, ?_⟩
    · rw [Operator.sighted_eq_find?, Window.find?_view]
      exact Operator.longest_iff.1 hop
    · have hfits := hop.fits
      obtain ⟨tail, htext⟩ := hfits
      have hlongest := hop
      rw [← htext] at hlongest hcomment hunread
      obtain ⟨hvalue, htail⟩ :=
        Cursor.outcomeAt_of_longest h n hgap hlongest hcomment hunread
      rw [htail, ← htext, List.drop_left]
      exact ⟨hvalue, rfl⟩
  · intro run rest hne hrun hrest hunread
    obtain ⟨ops, hops⟩ := Operator.exists_greedy hrun
    refine ⟨ops, hops, fun others hothers => hops.eq hothers, ?_⟩
    intro hcomments
    exact Cursor.outcomeAt_of_greedy h hops hrest hcomments n hgap (Or.inl hne) hunread

/-- Operators behind a comment, up to the end of the text. -/
def denseSource : String := "x/**/<<<<=>>>=>/"

/-- The operators of `denseSource`. -/
def denseOperators : List Operator :=
  [⟨['<', '<', '<'], .shiftLeftAssign⟩, ⟨['<', '='], .lessEqual⟩,
   ⟨['>', '>', '>'], .shiftRightAssign⟩, ⟨['=', '>'], .arrow⟩, ⟨['/'], .slash⟩]

/-- The first operator of `denseSource` is the longest that fits, and the last one stands
at the end of the text. -/
theorem operator_in_denseSource :
    Cursor.ofSource denseSource = .ok ⟨(), [.opened 16], Cursor.start denseSource.toList⟩ ∧
      (Cursor.start denseSource.toList).outcomeAt 1 =
        .ok ⟨.shiftLeftAssign, "<<<", ⟨1, 6⟩, none⟩ ∧
      Operator.Greedy "<<<<=>>>=>/".toList denseOperators ∧
      (Cursor.start denseSource.toList).outcomeAt 5 = .ok ⟨.slash, "/", ⟨1, 16⟩, none⟩ ∧
      ((Cursor.start denseSource.toList).later 6).unread = [] := by
  have hopened : Cursor.ofSource denseSource =
      .ok ⟨(), [.opened 16], Cursor.start denseSource.toList⟩ :=
    Cursor.ofSource_eq_ok_iff.2 ⟨by decide, rfl⟩
  have hgap : ClosedGap [.block []] := by
    rw [Trivia.closedGap_cons]
    exact ⟨by simp [Trivia.WellFormed], rfl, Trivia.closedGap_nil⟩
  have hunread : ((Cursor.start denseSource.toList).later 1).unread =
      gapText [.block []] ++ ("<<<<=>>>=>/".toList ++ []) := by
    decide +kernel
  have hrow : Operator.Greedy "<<<<=>>>=>/".toList denseOperators :=
    .cons (Operator.longest_iff.2 (by decide)) rfl <|
      .cons (Operator.longest_iff.2 (by decide)) rfl <|
        .cons (Operator.longest_iff.2 (by decide)) rfl <|
          .cons (Operator.longest_iff.2 (by decide)) rfl <|
            .cons (Operator.longest_iff.2 (by decide)) rfl .nil
  have hcomments : ∀ back ∈ denseOperators.tails,
      ¬ Trivia.OpensComment (Operator.spelled back) := by
    simp only [Trivia.OpensComment]
    decide
  obtain ⟨hone, hall⟩ := operator_of_ofSource hopened 1 hgap
  obtain ⟨op, -, hfirst, -, hvalue, -⟩ :=
    hone '<' "<<<=>>>=>/".toList (by decide +kernel)
      (by simp only [Trivia.OpensComment]; decide) hunread
  obtain rfl := hfirst ⟨['<', '<', '<'], .shiftLeftAssign⟩ (Operator.longest_iff.2 (by decide))
  have hstarts : ∀ c ∈ "<<<<=>>>=>/".toList, Operator.starts c = true :=
    List.all_eq_true.1 (by decide +kernel)
  obtain ⟨ops, -, hunique, hread⟩ :=
    hall "<<<<=>>>=>/".toList [] (by simp) hstarts (by simp) hunread
  obtain rfl := hunique denseOperators hrow
  obtain ⟨hvalues, hend⟩ := hread fun back hback => hcomments back ((List.mem_tails _ _).2 hback)
  refine ⟨hopened, hvalue.trans ?_, hrow, ?_, hend⟩
  · decide +kernel
  · refine (hvalues (denseOperators.take 4) ⟨['/'], .slash⟩ [] rfl).trans ?_
    decide +kernel

end SharpLexer
