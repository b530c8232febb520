/-
Texts divided into lexemes by longest match.

Every kind of lexeme has its spellings. Where a spelling begins, the scan takes the longest one
that begins there, as an integer rather than a word if it is both. Where none begins it takes a
single character, or the rest of the line if that character is a quote. What is left over on a line
are the characters that stand between lexemes, and those stand in no lexeme but a literal or what
follows a quote that is left open.
-/

import CobolAnalysis.Proofs.Lexemes

namespace CobolAnalysis.Lexeme

/-! ### Spellings -/

/-- The spellings of each kind of lexeme; what is not recognized has none. -/
inductive Spells : LexemeKind → List Char → Prop where
  | integer {first : Char} {rest : List Char}
      (digits : (first :: rest).all Char.isDigit = true) : Spells .integer (first :: rest)
  | word {first : Char} {rest : List Char} (starts : isNameStart first = true)
      (goesOn : rest.all isNameCharacter = true) : Spells .word (first :: rest)
  | literal {quote : Char} {inside : List Char} (quotes : Source.isQuote quote = true)
      (closed : quote ∉ inside) : Spells .literal (quote :: (inside ++ [quote]))
  | period : Spells .period ['.']
  | leftParenthesis : Spells .leftParenthesis ['(']
  | rightParenthesis : Spells .rightParenthesis [')']
  | operator {first : Char} {rest : List Char}
      (operators : (first :: rest).all isOperator = true) : Spells .operator (first :: rest)

theorem Spells.name {kind : LexemeKind} {first : Char} {rest : List Char}
    (spells : Spells kind (first :: rest)) (name : kind = .word ∨ kind = .integer) :
    isNameStart first = true ∧ rest.all isNameCharacter = true := by
  cases spells with
  | integer digits =>
      have all := List.forall_mem_cons.mp (List.all_eq_true.mp digits)
      constructor
      · unfold isNameStart Char.isAlphanum
        rw [all.1, Bool.or_true]
      · apply List.all_eq_true.mpr
        intro character member
        exact isNameCharacter_of_isDigit (all.2 character member)
  | word starts goesOn => exact ⟨starts, goesOn⟩
  | literal quotes closed => rcases name with none | none <;> cases none
  | period => rcases name with none | none <;> cases none
  | leftParenthesis => rcases name with none | none <;> cases none
  | rightParenthesis => rcases name with none | none <;> cases none
  | operator operators => rcases name with none | none <;> cases none

theorem Spells.characters {kind : LexemeKind} {text : List Char} (spells : Spells kind text)
    (other : kind ≠ .literal) : ∀ character ∈ text, isNameCharacter character = true ∨
      isOperator character = true ∨ character = '.' ∨ character = '(' ∨ character = ')' := by
  intro character member
  cases spells with
  | integer digits =>
      exact Or.inl (isNameCharacter_of_isDigit (List.all_eq_true.mp digits character member))
  | word starts goesOn =>
      rcases List.mem_cons.mp member with rfl | later
      · exact Or.inl (isNameCharacter_of_isNameStart starts)
      · exact Or.inl (List.all_eq_true.mp goesOn character later)
  | literal quotes closed => exact absurd rfl other
  | period => exact Or.inr (Or.inr (Or.inl (List.mem_singleton.mp member)))
  | leftParenthesis => exact Or.inr (Or.inr (Or.inr (Or.inl (List.mem_singleton.mp member))))
  | rightParenthesis => exact Or.inr (Or.inr (Or.inr (Or.inr (List.mem_singleton.mp member))))
  | operator operators => exact Or.inr (Or.inl (List.all_eq_true.mp operators character member))

theorem Spells.visible {kind : LexemeKind} {text : List Char} (spells : Spells kind text)
    (other : kind ≠ .literal) : ∀ character ∈ text, isSkipped character = false := by
  intro character member
  rcases spells.characters other character member with name | operator | rfl | rfl | rfl
  · exact isSkipped_of_isNameCharacter name
  · exact isSkipped_of_starts (Or.inr (Or.inr operator))
  all_goals decide

theorem Spells.plain {kind : LexemeKind} {text : List Char} (spells : Spells kind text)
    (other : kind ≠ .literal) : ∀ character ∈ text, Source.isQuote character = false := by
  intro character member
  rcases spells.characters other character member with name | operator | rfl | rfl | rfl
  · exact isQuote_of_isNameCharacter name
  · rcases operator_cases operator with rfl | rfl | rfl | rfl | rfl | rfl | rfl | rfl <;> decide
  all_goals decide

/-! ### The longest spelling -/

/-- A text begins with a lexeme of this kind, of these characters. -/
structure Begins (kind : LexemeKind) (taken text : List Char) : Prop where
  front : taken <+: text
  spelled : kind ≠ .unrecognized → Spells kind taken
  /-- No spelling that begins here is longer, and none begins where nothing is recognized. -/
  longest : ∀ other spelling, Spells other spelling → spelling <+: text →
    kind ≠ .unrecognized ∧ spelling.length ≤ taken.length
  /-- A word is not spelled like an integer. -/
  preferred : kind = .word → ¬Spells .integer taken
  /-- A quote that is left open takes the rest, any other character stands by itself. -/
  unknown : kind = .unrecognized → ∃ first rest, text = first :: rest ∧
    taken = if Source.isQuote first then text else [first]

theorem spells_longest (first : Char) (rest : List Char) :
    (longest first rest).1 ≠ .unrecognized →
      Spells (longest first rest).1 (first :: (longest first rest).2) := by
  unfold longest
  split
  next starts =>
    intro _
    dsimp only
    split
    next digits => exact .integer digits
    next => exact .word starts List.all_takeWhile
  split
  next quotes =>
    split
    next closed =>
      intro _
      exact .literal quotes (not_mem_takeWhile_until first rest)
    next =>
      intro recognized
      exact absurd rfl recognized
  split
  next period =>
    intro _
    rw [period]
    exact .period
  split
  next left =>
    intro _
    rw [left]
    exact .leftParenthesis
  split
  next right =>
    intro _
    rw [right]
    exact .rightParenthesis
  split
  next operator =>
    intro _
    apply Spells.operator
    rw [List.all_cons, operator, List.all_takeWhile]
    rfl
  next =>
    intro recognized
    exact absurd rfl recognized

theorem length_le_takeWhile {belongs : Char → Bool} {spelling text : List Char}
    (front : spelling <+: text) (all : spelling.all belongs = true) :
    spelling.length ≤ (text.takeWhile belongs).length := by
  obtain ⟨rest, rfl⟩ := front
  rw [List.takeWhile_append_of_pos (List.all_eq_true.mp all), List.length_append]
  omega

theorem length_le_longest {kind : LexemeKind} {first : Char} {spelling rest : List Char}
    (spells : Spells kind (first :: spelling)) (front : spelling <+: rest) :
    (longest first rest).1 ≠ .unrecognized ∧ spelling.length ≤ (longest first rest).2.length := by
  have names : isNameStart first = true → spelling.all isNameCharacter = true →
      (longest first rest).1 ≠ .unrecognized ∧
        spelling.length ≤ (longest first rest).2.length := by
    intro starts goesOn
    rw [longest_of_isNameStart starts]
    constructor
    · dsimp only
      split <;> decide
    · exact length_le_takeWhile front goesOn
  cases spells with
  | integer digits =>
      have name := Spells.name (.integer digits) (Or.inr rfl)
      exact names name.1 name.2
  | word starts goesOn => exact names starts goesOn
  | @literal _ inside quotes closed =>
      obtain ⟨after, rfl⟩ := front
      have present : (inside ++ [first] ++ after).contains first = true :=
        List.contains_iff_mem.mpr (List.mem_append_left after List.mem_concat_self)
      rw [longest_of_isQuote quotes, if_pos present, List.append_assoc,
        show [first] ++ after = first :: after from rfl, takeWhile_until closed]
      exact ⟨LexemeKind.noConfusion, Nat.le_refl _⟩
  | period => exact ⟨LexemeKind.noConfusion, Nat.zero_le _⟩
  | leftParenthesis => exact ⟨LexemeKind.noConfusion, Nat.zero_le _⟩
  | rightParenthesis => exact ⟨LexemeKind.noConfusion, Nat.zero_le _⟩
  | operator operators =>
      rw [List.all_cons, Bool.and_eq_true] at operators
      rw [longest_of_isOperator operators.1]
      exact ⟨LexemeKind.noConfusion, length_le_takeWhile front operators.2⟩

theorem not_digits_of_word {first : Char} {rest : List Char}
    (word : (longest first rest).1 = .word) :
    ¬(first :: (longest first rest).2).all Char.isDigit = true := by
  have spells := spells_longest first rest (by rw [word]; decide)
  obtain ⟨starts, _⟩ := spells.name (Or.inl word)
  rw [longest_of_isNameStart starts] at word ⊢
  dsimp only at word ⊢
  split at word
  next => cases word
  next letters => exact letters

theorem unknown_longest {first : Char} {rest : List Char}
    (unknown : (longest first rest).1 = .unrecognized) :
    first :: (longest first rest).2 =
      if Source.isQuote first then first :: rest else [first] := by
  by_cases quotes : Source.isQuote first = true
  · rw [if_pos quotes]
    rw [longest_of_isQuote quotes] at unknown ⊢
    split at unknown
    next => cases unknown
    next unclosed => rw [if_neg unclosed]
  · rw [if_neg quotes]
    revert unknown
    unfold longest
    rw [if_neg quotes]
    split
    next =>
      dsimp only
      split
      · exact LexemeKind.noConfusion
      · exact LexemeKind.noConfusion
    split
    next => exact fun _ => rfl
    split
    next => exact fun _ => rfl
    split
    next => exact fun _ => rfl
    split
    next => exact LexemeKind.noConfusion
    next => exact fun _ => rfl

/-- Scanning takes the longest spelling that begins at a place. -/
theorem begins_longest (first : Char) (rest : List Char) :
    Begins (longest first rest).1 (first :: (longest first rest).2) (first :: rest) where
  front := List.cons_prefix_cons.mpr ⟨rfl, longest_starts first rest⟩
  spelled := spells_longest first rest
  longest := by
    intro other spelling spells front
    cases spelling with
    | nil => cases spells
    | cons character others =>
        obtain ⟨rfl, within⟩ := List.cons_prefix_cons.mp front
        obtain ⟨recognized, short⟩ := length_le_longest spells within
        exact ⟨recognized, Nat.succ_le_succ short⟩
  preferred := by
    intro word integer
    apply not_digits_of_word word
    cases integer with
    | integer digits => exact digits
  unknown := fun unknown => ⟨first, rest, rfl, unknown_longest unknown⟩

/-! ### Lexemes at their places -/

theorem exists_takenAt_of_mem_scan {text : List Char} {lexeme : Lexeme}
    (member : lexeme ∈ scan text) :
    ∃ number before first rest, (Text.lines text)[number]? = some (before ++ first :: rest) ∧
      isSkipped first = false ∧ lexeme = takenAt number before.length first rest := by
  obtain ⟨number, line, there, here⟩ := mem_scanLines_iff.mp member
  obtain ⟨before, first, rest, rfl, visible, taken⟩ := exists_takenAt_of_mem here
  rw [Nat.zero_add, Nat.zero_add] at taken
  exact ⟨number, before, first, rest, there, visible, taken⟩

/-- The character at this place is one of the lexeme. -/
structure Occupies (lexeme : Lexeme) (number column : Nat) : Prop where
  line : lexeme.line = number
  right : lexeme.column ≤ column
  left : column < lexeme.column + lexeme.text.length

theorem not_occupies_of_lt {number column place : Nat} {text : List Char} {lexeme : Lexeme}
    (member : lexeme ∈ scanFrom number column text) (before : place < column) :
    ¬lexeme.Occupies number place := by
  intro occupies
  obtain ⟨_, ⟨_, _, _, start⟩, _⟩ := mem_scanFrom member
  have right := occupies.right
  omega

/-- A quote that is never closed on its line, and whatever follows it there. -/
structure LeavesOpen (lexeme : Lexeme) (quote : Char) : Prop where
  unrecognized : lexeme.kind = .unrecognized
  starts : lexeme.text.head? = some quote
  quotes : Source.isQuote quote = true

theorem isSkipped_of_free (number column : Nat) (text : List Char) (character : Char) :
    ∀ place : Nat, text[place]? = some character →
      (∀ lexeme ∈ scanFrom number column text, ¬lexeme.Occupies number (column + place)) →
        isSkipped character = true := by
  induction column, text using scanFrom.induct with
  | case1 =>
      intro place there
      cases there
  | case2 column first rest skipped ih =>
      intro place there free
      rw [scanFrom_skipped skipped] at free
      cases place with
      | zero =>
          cases there
          exact skipped
      | succ place =>
          apply ih place there
          rw [Nat.add_assoc, Nat.add_comm 1]
          exact free
  | case3 column first rest visible tail following ih =>
      intro place there free
      rw [scanFrom_visible visible] at free
      obtain ⟨own, others⟩ := List.forall_mem_cons.mp free
      have beyond : tail.length + 1 ≤ place := by
        apply Nat.le_of_not_lt
        intro within
        apply own
        constructor
        · rfl
        · exact Nat.le_add_right column place
        · exact Nat.add_lt_add_left within column
      obtain ⟨further, rfl⟩ := Nat.exists_eq_add_of_le beyond
      have onward : following[further]? = some character := by
        rw [Nat.add_right_comm, List.getElem?_cons_succ] at there
        rw [List.getElem?_drop]
        exact there
      apply ih further onward
      intro lexeme member
      have apart := others lexeme member
      rw [show column + (tail.length + 1 + further) = column + 1 + tail.length + further by omega]
        at apart
      exact apart

/-! ### Division -/

/-- Lexemes that divide a text. -/
structure Divides (lexemes : List Lexeme) (text : List Char) : Prop where
  ordered : lexemes.Pairwise fun lexeme later =>
    lexeme.line < later.line ∨ lexeme.line = later.line ∧ lexeme.column < later.column
  /-- No character belongs to two lexemes. -/
  disjoint : lexemes.Pairwise Precedes
  slices : ∀ lexeme ∈ lexemes, lexeme.text ≠ [] ∧
    ∃ raw, (Text.lines text)[lexeme.line]? = some raw ∧
      (raw.drop lexeme.column).take lexeme.text.length = lexeme.text
  longest : ∀ lexeme ∈ lexemes, ∀ raw, (Text.lines text)[lexeme.line]? = some raw →
    Begins lexeme.kind lexeme.text (raw.drop lexeme.column)
  /-- What is left over stands between lexemes. -/
  complete : ∀ number raw column character, (Text.lines text)[number]? = some raw →
    raw[column]? = some character → (∀ lexeme ∈ lexemes, ¬lexeme.Occupies number column) →
      isSkipped character = true
  tight : ∀ lexeme ∈ lexemes, lexeme.kind ≠ .literal → (∀ quote, ¬lexeme.LeavesOpen quote) →
    ∀ character ∈ lexeme.text, isSkipped character = false
  namesApart : ∀ lexeme ∈ lexemes, ∀ other ∈ lexemes, lexeme.isName = true →
    other.isName = true → lexeme.line = other.line →
      lexeme.column + lexeme.text.length ≠ other.column
  integers : ∀ lexeme ∈ lexemes, lexeme.kind = .integer ↔
    lexeme.isName = true ∧ lexeme.text.all Char.isDigit = true
  separators : ∀ lexeme ∈ lexemes, lexeme.kind = .period →
    ∀ raw, (Text.lines text)[lexeme.line]? = some raw →
      (lexeme.isSeparator = true ↔ raw.length = lexeme.column + 1 ∨
        ∃ next, raw[lexeme.column + 1]? = some next ∧ Text.isBlank next = true)

section Scanned

variable {text : List Char} {lexeme : Lexeme}

theorem begins_of_mem_scan (member : lexeme ∈ scan text) {raw : List Char}
    (there : (Text.lines text)[lexeme.line]? = some raw) :
    Begins lexeme.kind lexeme.text (raw.drop lexeme.column) := by
  obtain ⟨number, before, first, rest, present, _, rfl⟩ := exists_takenAt_of_mem_scan member
  have same : before ++ first :: rest = raw := Option.some.inj (present.symm.trans there)
  rw [← same]
  change Begins _ _ ((before ++ first :: rest).drop before.length)
  rw [List.drop_left]
  exact begins_longest first rest

theorem isName_iff_kind (lexeme : Lexeme) :
    lexeme.isName = true ↔ lexeme.kind = .word ∨ lexeme.kind = .integer := by
  unfold isName
  rw [Bool.or_eq_true, beq_iff_eq, beq_iff_eq]

theorem tight_of_mem_scan (member : lexeme ∈ scan text) (other : lexeme.kind ≠ .literal)
    (closed : ∀ quote, ¬lexeme.LeavesOpen quote) :
    ∀ character ∈ lexeme.text, isSkipped character = false := by
  obtain ⟨number, before, first, rest, _, visible, rfl⟩ := exists_takenAt_of_mem_scan member
  have begins := begins_longest first rest
  by_cases unknown : (longest first rest).1 = .unrecognized
  · have noQuote : ¬Source.isQuote first = true := by
      intro quotes
      exact closed first ⟨unknown, rfl, quotes⟩
    intro character inside
    change character ∈ first :: (longest first rest).2 at inside
    rw [unknown_longest unknown, if_neg noQuote, List.mem_singleton] at inside
    rw [inside]
    exact visible
  · exact (begins.spelled unknown).visible other

/-- Whatever begins directly behind a name is no name. -/
theorem names_apart {lexeme other : Lexeme} (member : lexeme ∈ scan text)
    (otherMember : other ∈ scan text) (name : lexeme.isName = true)
    (otherName : other.isName = true) (sameLine : lexeme.line = other.line) :
    lexeme.column + lexeme.text.length ≠ other.column := by
  intro adjacent
  obtain ⟨number, before, first, rest, present, _, rfl⟩ := exists_takenAt_of_mem_scan member
  obtain ⟨further, gap, next, after, alsoPresent, _, rfl⟩ := exists_takenAt_of_mem_scan otherMember
  cases sameLine
  change before.length + ((longest first rest).2.length + 1) = gap.length at adjacent
  have named := (isName_iff_kind _).mp name
  have nextNamed := (isName_iff_kind _).mp otherName
  have recognized : ∀ {kind : LexemeKind}, kind = .word ∨ kind = .integer →
      kind ≠ .unrecognized := by
    intro kind names none
    rw [none] at names
    rcases names with none | none <;> cases none
  obtain ⟨starts, goesOn⟩ := (spells_longest first rest (recognized named)).name named
  obtain ⟨nextStarts, _⟩ := (spells_longest next after (recognized nextNamed)).name nextNamed
  have longer : Spells .word (first :: ((longest first rest).2 ++ [next])) := by
    apply Spells.word starts
    rw [List.all_append, goesOn, List.all_cons, isNameCharacter_of_isNameStart nextStarts]
    rfl
  have front : (longest first rest).2 ++ [next] <+: rest := by
    have same : before ++ first :: rest = gap ++ next :: after :=
      Option.some.inj (present.symm.trans alsoPresent)
    have behind := congrArg (List.drop gap.length) same
    rw [List.drop_left, ← adjacent, ← List.drop_drop, List.drop_left, List.drop_succ_cons] at behind
    have whole := longest_append_drop first rest
    rw [behind] at whole
    exact ⟨after, by rw [List.append_assoc]; exact whole⟩
  have short := (length_le_longest longer front).2
  rw [List.length_append, List.length_singleton] at short
  omega

theorem integer_iff (member : lexeme ∈ scan text) :
    lexeme.kind = .integer ↔ lexeme.isName = true ∧ lexeme.text.all Char.isDigit = true := by
  obtain ⟨number, before, first, rest, _, _, rfl⟩ := exists_takenAt_of_mem_scan member
  rw [isName_iff_kind]
  change (longest first rest).1 = .integer ↔ ((longest first rest).1 = .word ∨
    (longest first rest).1 = .integer) ∧ (first :: (longest first rest).2).all Char.isDigit = true
  constructor
  · intro integer
    have spells := spells_longest first rest (by rw [integer]; decide)
    constructor
    · exact Or.inr integer
    · rw [integer] at spells
      cases spells with
      | integer digits => exact digits
  · intro both
    rcases both.1 with word | integer
    · exact absurd both.2 (not_digits_of_word word)
    · exact integer

theorem separator_iff (member : lexeme ∈ scan text) (period : lexeme.kind = .period)
    {raw : List Char} (there : (Text.lines text)[lexeme.line]? = some raw) :
    lexeme.isSeparator = true ↔ raw.length = lexeme.column + 1 ∨
      ∃ next, raw[lexeme.column + 1]? = some next ∧ Text.isBlank next = true := by
  obtain ⟨number, before, first, rest, present, _, rfl⟩ := exists_takenAt_of_mem_scan member
  have same : before ++ first :: rest = raw := Option.some.inj (present.symm.trans there)
  have alone : (longest first rest).2 = [] := by
    have spells := spells_longest first rest (by
      rw [show (longest first rest).1 = .period from period]
      decide)
    rw [show (longest first rest).1 = .period from period] at spells
    generalize (longest first rest).2 = tail at spells
    cases spells with
    | period => rfl
  have separates : (takenAt number before.length first rest).isSeparator =
      rest.head?.all Text.isBlank := by
    unfold isSeparator
    rw [period]
    change (rest.drop (longest first rest).2.length).head?.all Text.isBlank = _
    rw [alone]
    rfl
  have next : raw[before.length + 1]? = rest.head? := by
    rw [← same, List.getElem?_append_right (Nat.le_add_right _ 1),
      Nat.add_sub_cancel_left, List.head?_eq_getElem?]
    rfl
  have length : raw.length = before.length + 1 ↔ rest = [] := by
    rw [← same, List.length_append, List.length_cons, ← List.length_eq_zero_iff]
    omega
  rw [separates]
  change _ ↔ raw.length = before.length + 1 ∨ ∃ next, raw[before.length + 1]? = some next ∧ _
  rw [next, length]
  cases rest with
  | nil => exact iff_of_true rfl (Or.inl rfl)
  | cons character others =>
      constructor
      · intro blank
        exact Or.inr ⟨character, rfl, blank⟩
      · intro ends
        rcases ends with none | ⟨next, same, blank⟩
        · cases none
        · cases same
          exact blank

end Scanned

/-- The lexemes of a text divide it by longest match. -/
theorem scan_divides (text : List Char) : Divides (scan text) text where
  ordered := by
    apply (pairwise_scan text).imp_of_mem
    intro lexeme later member _ precedes
    obtain ⟨_, _, _, _, _, first, rest, shape, _⟩ := mem_scanLines member
    unfold Precedes at precedes
    rw [shape, List.length_cons] at precedes
    omega
  disjoint := pairwise_scan text
  slices := by
    intro lexeme member
    obtain ⟨number, before, first, rest, present, _, rfl⟩ := exists_takenAt_of_mem_scan member
    constructor
    · exact List.cons_ne_nil _ _
    · refine ⟨_, present, ?_⟩
      change ((before ++ first :: rest).drop before.length).take _ = _
      rw [List.drop_left]
      exact (List.prefix_iff_eq_take.mp (begins_longest first rest).front).symm
  longest := fun lexeme member raw there => begins_of_mem_scan member there
  complete := by
    intro number raw column character there stands free
    apply isSkipped_of_free number 0 raw character column stands
    intro lexeme member
    rw [Nat.zero_add]
    apply free
    apply mem_scanLines_iff.mpr
    refine ⟨number, raw, there, ?_⟩
    rw [Nat.zero_add]
    exact member
  tight := fun lexeme member => tight_of_mem_scan member
  namesApart := fun lexeme member other otherMember => names_apart member otherMember
  integers := fun lexeme member => integer_iff member
  separators := fun lexeme member period raw there => separator_iff member period there

end CobolAnalysis.Lexeme
