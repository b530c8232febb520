/-
Where lexemes stand in the text they are scanned from.

Which lexeme is the longest depends on its first character. A lexeme is a stretch of one line: the
characters from its column on are those of its text, and the first of them is not one that stands
between lexemes. Lexemes follow one another without overlap. Where the line stands in its text
makes a difference to its lexemes in their line number only. An empty line has none, so it makes no
difference whether the last line that was written is empty. Lines that follow a text are scanned by
themselves.
-/

import CobolAnalysis.Lexeme
import CobolAnalysis.Proofs.Text.Lines

namespace CobolAnalysis.Lexeme

/-! ### Characters -/

theorem isDigit_iff (character : Char) :
    character.isDigit = true ↔ 48 ≤ character.toNat ∧ character.toNat ≤ 57 := by
  unfold Char.isDigit
  rw [Bool.and_eq_true, decide_eq_true_iff, decide_eq_true_iff]
  rfl

theorem isAlphanum_iff (character : Char) :
    character.isAlphanum = true ↔ 65 ≤ character.toNat ∧ character.toNat ≤ 90 ∨
      97 ≤ character.toNat ∧ character.toNat ≤ 122 ∨
        48 ≤ character.toNat ∧ character.toNat ≤ 57 := by
  have upperCase : character.isUpper = true ↔ 65 ≤ character.toNat ∧ character.toNat ≤ 90 := by
    unfold Char.isUpper
    rw [decide_eq_true_iff]
    rfl
  have lowerCase : character.isLower = true ↔ 97 ≤ character.toNat ∧ character.toNat ≤ 122 := by
    unfold Char.isLower
    rw [Bool.and_eq_true, decide_eq_true_iff, decide_eq_true_iff]
    rfl
  unfold Char.isAlphanum Char.isAlpha
  rw [Bool.or_eq_true, Bool.or_eq_true, upperCase, lowerCase, isDigit_iff, or_assoc]

theorem isBlank_of_isNameCharacter {character : Char}
    (belongs : isNameCharacter character = true) : Text.isBlank character = false := by
  unfold isNameCharacter at belongs
  simp only [Bool.or_eq_true, beq_iff_eq, isAlphanum_iff] at belongs
  rcases belongs with (letter | rfl) | rfl
  · unfold Text.isBlank
    simp only [Bool.or_eq_false_iff, Bool.and_eq_false_iff, decide_eq_false_iff_not,
      beq_eq_false_iff_ne]
    omega
  · decide
  · decide

theorem isQuote_of_isNameCharacter {character : Char}
    (belongs : isNameCharacter character = true) : Source.isQuote character = false := by
  apply Bool.eq_false_iff.mpr
  intro quote
  unfold Source.isQuote at quote
  simp only [Bool.or_eq_true, beq_iff_eq] at quote
  rcases quote with rfl | rfl <;> exact absurd belongs (by decide)

theorem isBlank_of_isQuote {character : Char} (quote : Source.isQuote character = true) :
    Text.isBlank character = false := by
  unfold Source.isQuote at quote
  simp only [Bool.or_eq_true, beq_iff_eq] at quote
  rcases quote with rfl | rfl <;> decide

theorem operator_cases {character : Char} (operator : isOperator character = true) :
    character = '=' ∨ character = '<' ∨ character = '>' ∨ character = '+' ∨ character = '*' ∨
      character = '/' ∨ character = ':' ∨ character = '&' := by
  unfold isOperator at operator
  simp only [Bool.or_eq_true, beq_iff_eq, or_assoc] at operator
  exact operator

theorem isNameCharacter_of_isNameStart {character : Char}
    (starts : isNameStart character = true) : isNameCharacter character = true := by
  unfold isNameCharacter
  rw [show character.isAlphanum = true from starts]
  rfl

theorem isSkipped_of_starts {character : Char} (starts : isNameStart character = true ∨
    Source.isQuote character = true ∨ isOperator character = true) :
    isSkipped character = false := by
  apply Bool.eq_false_iff.mpr
  intro skipped
  unfold isSkipped at skipped
  simp only [Bool.or_eq_true, beq_iff_eq, or_assoc] at skipped
  rcases skipped with rfl | rfl | rfl | rfl | rfl | rfl <;> exact absurd starts (by decide)

theorem isNameCharacter_of_isDigit {character : Char} (digit : character.isDigit = true) :
    isNameCharacter character = true := by
  apply isNameCharacter_of_isNameStart
  unfold isNameStart Char.isAlphanum
  rw [digit, Bool.or_true]

theorem isSkipped_of_isNameCharacter {character : Char}
    (belongs : isNameCharacter character = true) : isSkipped character = false := by
  apply Bool.eq_false_iff.mpr
  intro skipped
  unfold isSkipped at skipped
  simp only [Bool.or_eq_true, beq_iff_eq, or_assoc] at skipped
  rcases skipped with rfl | rfl | rfl | rfl | rfl | rfl <;> exact absurd belongs (by decide)

theorem isQuote_of_isSkipped {character : Char} (skipped : isSkipped character = true) :
    Source.isQuote character = false := by
  apply Bool.eq_false_iff.mpr
  intro quotes
  rw [isSkipped_of_starts (Or.inr (Or.inl quotes))] at skipped
  cases skipped

theorem not_isNameStart_of_isQuote {character : Char} (quotes : Source.isQuote character = true) :
    ¬isNameStart character = true := by
  intro starts
  rw [isQuote_of_isNameCharacter (isNameCharacter_of_isNameStart starts)] at quotes
  cases quotes

/-! ### The longest lexeme -/

theorem longest_of_isNameStart {first : Char} (starts : isNameStart first = true)
    (rest : List Char) :
    longest first rest =
      (if (first :: rest.takeWhile isNameCharacter).all Char.isDigit then .integer else .word,
        rest.takeWhile isNameCharacter) := by
  unfold longest
  rw [if_pos starts]

theorem longest_of_isQuote {first : Char} (quotes : Source.isQuote first = true)
    (rest : List Char) :
    longest first rest =
      if rest.contains first then (.literal, rest.takeWhile (· != first) ++ [first])
      else (.unrecognized, rest) := by
  unfold longest
  rw [if_neg (not_isNameStart_of_isQuote quotes), if_pos quotes]

theorem longest_of_isOperator {first : Char} (operator : isOperator first = true)
    (rest : List Char) : longest first rest = (.operator, rest.takeWhile isOperator) := by
  have other : ¬isNameStart first = true ∧ ¬Source.isQuote first = true ∧
      first ≠ '.' ∧ first ≠ '(' ∧ first ≠ ')' := by
    rcases operator_cases operator with rfl | rfl | rfl | rfl | rfl | rfl | rfl | rfl <;> decide
  obtain ⟨noName, noQuote, noPeriod, noLeft, noRight⟩ := other
  unfold longest
  rw [if_neg noName, if_neg noQuote, if_neg noPeriod, if_neg noLeft, if_neg noRight,
    if_pos operator]

theorem takeWhile_append_of_stops {belongs : Char → Bool} {text rest : List Char}
    (all : text.all belongs = true)
    (stops : ∀ next, rest.head? = some next → belongs next = false) :
    (text ++ rest).takeWhile belongs = text := by
  rw [List.takeWhile_append_of_pos (List.all_eq_true.mp all)]
  cases rest with
  | nil => rw [List.takeWhile_nil, List.append_nil]
  | cons next others =>
      rw [List.takeWhile_cons, stops next rfl]
      exact List.append_nil text

theorem takeWhile_until {quote : Char} {inside : List Char} (closed : quote ∉ inside)
    (rest : List Char) : (inside ++ quote :: rest).takeWhile (· != quote) = inside := by
  apply takeWhile_append_of_stops
  · apply List.all_eq_true.mpr
    intro character member
    exact bne_iff_ne.mpr fun same => closed (same ▸ member)
  · intro next head
    cases head
    exact bne_self_eq_false quote

theorem not_mem_takeWhile_until (quote : Char) (text : List Char) :
    quote ∉ text.takeWhile (· != quote) := by
  intro member
  have other := List.all_eq_true.mp List.all_takeWhile quote member
  rw [bne_self_eq_false] at other
  cases other

theorem untilQuote_starts {quote : Char} {text : List Char} (closed : quote ∈ text) :
    text.takeWhile (· != quote) ++ [quote] <+: text := by
  induction text with
  | nil => exact absurd closed List.not_mem_nil
  | cons character others ih =>
      rw [List.takeWhile_cons]
      by_cases same : character = quote
      · rw [same]
        simp
      · rw [if_pos (bne_iff_ne.mpr same), List.cons_append, List.cons_prefix_cons]
        exact ⟨rfl, ih ((List.mem_cons.mp closed).resolve_left fun here => same here.symm)⟩

theorem longest_starts (first : Char) (rest : List Char) : (longest first rest).2 <+: rest := by
  unfold longest
  split
  · exact List.takeWhile_prefix _
  split
  · split
    next closed => exact untilQuote_starts (List.contains_iff_mem.mp closed)
    next => exact List.prefix_rfl
  split
  · exact List.nil_prefix
  split
  · exact List.nil_prefix
  split
  · exact List.nil_prefix
  split
  · exact List.takeWhile_prefix _
  · exact List.nil_prefix

/-! ### Places -/

/-- The lexeme is the stretch of the text from its column on; the text starts at `column`. -/
structure StandsIn (lexeme : Lexeme) (column : Nat) (text : List Char) : Prop where
  place : ∃ before after, text = before ++ lexeme.text ++ after ∧
    lexeme.column = column + before.length
  visible : ∃ first rest, lexeme.text = first :: rest ∧ isSkipped first = false

/-- The lexeme that is taken where `first` stands, with what follows it on its line. -/
def takenAt (number column : Nat) (first : Char) (rest : List Char) : Lexeme where
  kind := (longest first rest).1
  text := first :: (longest first rest).2
  line := number
  column := column
  beforeBlank := (rest.drop (longest first rest).2.length).head?.all Text.isBlank

theorem scanFrom_skipped {number column : Nat} {first : Char} {rest : List Char}
    (skipped : isSkipped first = true) :
    scanFrom number column (first :: rest) = scanFrom number (column + 1) rest := by
  rw [scanFrom, if_pos skipped]

theorem scanFrom_visible {number column : Nat} {first : Char} {rest : List Char}
    (visible : ¬isSkipped first = true) :
    scanFrom number column (first :: rest) = takenAt number column first rest ::
      scanFrom number (column + 1 + (longest first rest).2.length)
        (rest.drop (longest first rest).2.length) := by
  rw [scanFrom, if_neg visible]
  rfl

theorem longest_append_drop (first : Char) (rest : List Char) :
    (longest first rest).2 ++ rest.drop (longest first rest).2.length = rest := by
  obtain ⟨after, split⟩ := longest_starts first rest
  have onward := congrArg (List.drop (longest first rest).2.length) split
  rw [List.drop_left] at onward
  rw [← onward, split]

theorem exists_takenAt_of_mem {number column : Nat} {text : List Char} {lexeme : Lexeme}
    (member : lexeme ∈ scanFrom number column text) :
    ∃ before first rest, text = before ++ first :: rest ∧ isSkipped first = false ∧
      lexeme = takenAt number (column + before.length) first rest := by
  induction column, text using scanFrom.induct with
  | case1 => simp [scanFrom] at member
  | case2 column first rest skipped ih =>
      rw [scanFrom_skipped skipped] at member
      obtain ⟨before, next, after, rfl, visible, rfl⟩ := ih member
      refine ⟨first :: before, next, after, rfl, visible, ?_⟩
      rw [List.length_cons, Nat.add_assoc, Nat.add_comm 1]
  | case3 column first rest visible tail following ih =>
      rw [scanFrom_visible visible] at member
      rcases List.mem_cons.mp member with rfl | later
      · exact ⟨[], first, rest, rfl, Bool.eq_false_iff.mpr visible, rfl⟩
      · obtain ⟨before, next, after, split, nextVisible, rfl⟩ := ih later
        refine ⟨first :: tail ++ before, next, after, ?_, nextVisible, ?_⟩
        · rw [List.append_assoc, ← split]
          exact congrArg (first :: ·) (longest_append_drop first rest).symm
        · rw [List.length_append, List.length_cons]
          congr 1
          omega

theorem mem_scanFrom {number column : Nat} {text : List Char} {lexeme : Lexeme}
    (member : lexeme ∈ scanFrom number column text) :
    lexeme.line = number ∧ lexeme.StandsIn column text := by
  obtain ⟨before, first, rest, rfl, visible, rfl⟩ := exists_takenAt_of_mem member
  refine ⟨rfl, ⟨before, rest.drop (longest first rest).2.length, ?_, rfl⟩, first, _, rfl, visible⟩
  rw [List.append_assoc]
  exact congrArg (fun after => before ++ first :: after) (longest_append_drop first rest).symm

theorem mem_scanLines_iff {number : Nat} {lines : List (List Char)} {lexeme : Lexeme} :
    lexeme ∈ scanLines number lines ↔
      ∃ index line, lines[index]? = some line ∧ lexeme ∈ scanLine (number + index) line := by
  induction lines generalizing number with
  | nil =>
      refine iff_of_false List.not_mem_nil ?_
      rintro ⟨index, line, present, _⟩
      cases present
  | cons line rest ih =>
      rw [scanLines, List.mem_append, ih]
      constructor
      · intro member
        rcases member with here | ⟨index, other, present, there⟩
        · exact ⟨0, line, rfl, here⟩
        · refine ⟨index + 1, other, present, ?_⟩
          rwa [← Nat.add_assoc, Nat.add_right_comm]
      · rintro ⟨index, other, present, there⟩
        cases index with
        | zero =>
            cases present
            exact Or.inl there
        | succ index =>
            refine Or.inr ⟨index, other, present, ?_⟩
            rwa [Nat.add_right_comm, Nat.add_assoc]

theorem mem_scanLines {number : Nat} {lines : List (List Char)} {lexeme : Lexeme}
    (member : lexeme ∈ scanLines number lines) :
    ∃ index line, lines[index]? = some line ∧ lexeme.line = number + index ∧
      lexeme.StandsIn 0 line := by
  obtain ⟨index, line, present, here⟩ := mem_scanLines_iff.mp member
  exact ⟨index, line, present, mem_scanFrom here⟩

theorem scanLines_append (number : Nat) (first second : List (List Char)) :
    scanLines number (first ++ second) =
      scanLines number first ++ scanLines (number + first.length) second := by
  induction first generalizing number with
  | nil => rfl
  | cons line rest ih =>
      rw [List.cons_append, scanLines, scanLines, ih, List.append_assoc, List.length_cons,
        Nat.add_assoc, Nat.add_comm 1]

/-! ### One after the other -/

def Precedes (lexeme other : Lexeme) : Prop :=
  lexeme.line < other.line ∨
    lexeme.line = other.line ∧ lexeme.column + lexeme.text.length ≤ other.column

theorem pairwise_scanFrom (number column : Nat) (text : List Char) :
    (scanFrom number column text).Pairwise Precedes := by
  induction column, text using scanFrom.induct with
  | case1 => simp [scanFrom]
  | case2 column first rest skipped ih =>
      rw [scanFrom_skipped skipped]
      exact ih
  | case3 column first rest visible tail following ih =>
      rw [scanFrom_visible visible]
      refine List.pairwise_cons.mpr ⟨fun other member => Or.inr ?_, ih⟩
      obtain ⟨line, ⟨before, _, _, there⟩, _⟩ := mem_scanFrom member
      refine ⟨line.symm, ?_⟩
      rw [there]
      have length : (longest first rest).2.length = tail.length := rfl
      change column + ((longest first rest).2.length + 1) ≤ _
      omega

theorem pairwise_scanLines (number : Nat) (lines : List (List Char)) :
    (scanLines number lines).Pairwise Precedes := by
  induction lines generalizing number with
  | nil => exact .nil
  | cons line rest ih =>
      refine List.pairwise_append.mpr
        ⟨pairwise_scanFrom number 0 line, ih (number + 1), fun lexeme here other later => Or.inl ?_⟩
      obtain ⟨index, _, _, there, _⟩ := mem_scanLines later
      have same := (mem_scanFrom here).1
      omega

theorem pairwise_scan (text : List Char) : (scan text).Pairwise Precedes :=
  pairwise_scanLines 0 (Text.lines text)

theorem precedes_of_getElem? {lexemes : List Lexeme} (ordered : lexemes.Pairwise Precedes)
    {first second : Nat} {lexeme other : Lexeme} (here : lexemes[first]? = some lexeme)
    (there : lexemes[second]? = some other) (apart : first ≠ second) :
    lexeme.Precedes other ∨ other.Precedes lexeme := by
  obtain ⟨within, rfl⟩ := List.getElem?_eq_some_iff.mp here
  obtain ⟨also, rfl⟩ := List.getElem?_eq_some_iff.mp there
  rcases Nat.lt_or_gt_of_ne apart with below | above
  · exact Or.inl (List.pairwise_iff_getElem.mp ordered first second within also below)
  · exact Or.inr (List.pairwise_iff_getElem.mp ordered second first also within above)

/-! ### Wherever the lines stand -/

def unplaced (lexeme : Lexeme) : Lexeme := { lexeme with line := 0 }

theorem scanFrom_unplaced (number other column : Nat) (text : List Char) :
    (scanFrom number column text).map unplaced = (scanFrom other column text).map unplaced := by
  induction column, text using scanFrom.induct with
  | case1 => simp [scanFrom]
  | case2 column first rest skipped ih =>
      rw [scanFrom_skipped skipped, scanFrom_skipped skipped, ih]
  | case3 column first rest visible tail following ih =>
      rw [scanFrom_visible visible, scanFrom_visible visible]
      exact congrArg (_ :: ·) ih

theorem scanLines_unplaced (number other : Nat) (lines : List (List Char)) :
    (scanLines number lines).map unplaced = (scanLines other lines).map unplaced := by
  induction lines generalizing number other with
  | nil => rfl
  | cons line rest ih =>
      rw [scanLines, scanLines, List.map_append, List.map_append, ih (number + 1) (other + 1)]
      exact congrArg (· ++ _) (scanFrom_unplaced number other 0 line)

def lowered (lines : Nat) (lexeme : Lexeme) : Lexeme := { lexeme with line := lexeme.line + lines }

theorem scanFrom_lowered (lines number column : Nat) (text : List Char) :
    scanFrom (number + lines) column text = (scanFrom number column text).map (lowered lines) := by
  induction column, text using scanFrom.induct with
  | case1 => simp [scanFrom]
  | case2 column first rest skipped ih =>
      rw [scanFrom_skipped skipped, scanFrom_skipped skipped, ih]
  | case3 column first rest visible tail following ih =>
      rw [scanFrom_visible visible, scanFrom_visible visible]
      exact congrArg (_ :: ·) ih

theorem scanLines_lowered (count number : Nat) (lines : List (List Char)) :
    scanLines (number + count) lines = (scanLines number lines).map (lowered count) := by
  induction lines generalizing number with
  | nil => rfl
  | cons line rest ih =>
      rw [scanLines, scanLines, List.map_append, Nat.add_right_comm, ih]
      exact congrArg (· ++ _) (scanFrom_lowered count number 0 line)

/-! ### Lines that are written out -/

theorem scan_unlines {written : List (List Char)} (tidy : ∀ line ∈ written, Text.Tidy line) :
    scan (Text.unlines written) = scanLines 0 written := by
  unfold scan
  rw [Text.lines_unlines tidy]
  rcases Text.readBack_cases written with kept | lost
  · rw [kept]
  · have none : scanLines (0 + (Text.readBack written).length) [[]] = [] := by
      simp [scanLines, scanLine, scanFrom]
    have whole := congrArg (scanLines 0) lost
    rw [scanLines_append, none, List.append_nil] at whole
    exact whole.symm

/-! ### Texts that go on after a line feed -/

theorem takeWhile_return {belongs : Char → Bool} {rest : List Char}
    (stops : belongs '\r' = false ∨ ∃ character ∈ rest, belongs character = false) :
    (rest ++ ['\r']).takeWhile belongs = rest.takeWhile belongs := by
  rw [List.takeWhile_append]
  split
  next length =>
    have whole : rest.takeWhile belongs = rest :=
      (List.takeWhile_prefix belongs).eq_of_length length
    rcases stops with outside | ⟨character, member, outside⟩
    · rw [List.takeWhile_cons, outside, whole]
      simp
    · rw [← whole] at member
      have inside := List.all_eq_true.mp List.all_takeWhile character member
      rw [outside] at inside
      cases inside
  next => rfl

theorem longest_return {first : Char} (visible : first ≠ '\r') (rest : List Char) :
    longest first (rest ++ ['\r']) = longest first rest ∨
      longest first (rest ++ ['\r']) = (.unrecognized, rest ++ ['\r']) := by
  have closes : (rest ++ ['\r']).contains first = rest.contains first := by
    rw [List.contains_eq_mem, List.contains_eq_mem, decide_eq_decide, List.mem_append,
      List.mem_singleton]
    exact or_iff_left visible
  have names : (rest ++ ['\r']).takeWhile isNameCharacter = rest.takeWhile isNameCharacter :=
    takeWhile_return (Or.inl (by decide))
  have operators : (rest ++ ['\r']).takeWhile isOperator = rest.takeWhile isOperator :=
    takeWhile_return (Or.inl (by decide))
  unfold longest
  rw [closes, names, operators]
  by_cases closed : rest.contains first = true
  · have quoted : (rest ++ ['\r']).takeWhile (· != first) = rest.takeWhile (· != first) :=
      takeWhile_return (Or.inr ⟨first, List.contains_iff_mem.mp closed, bne_self_eq_false first⟩)
    rw [quoted, if_pos closed, if_pos closed]
    exact Or.inl rfl
  · rw [if_neg closed, if_neg closed]
    split
    · exact Or.inl rfl
    split
    · exact Or.inr rfl
    · exact Or.inl rfl

theorem isSkipped_return : isSkipped '\r' = true := by decide

/-- A carriage return after the text makes no difference, unless a quote is left open. -/
theorem scanFrom_return (number column : Nat) (text : List Char) :
    scanFrom number column (text ++ ['\r']) = scanFrom number column text ∨
      ∃ last, (scanFrom number column (text ++ ['\r'])).getLast? = some last ∧
        last.isRecognized = false := by
  induction column, text using scanFrom.induct with
  | case1 column =>
      left
      rw [List.nil_append, scanFrom, scanFrom, if_pos isSkipped_return, scanFrom]
  | case2 column first rest skipped ih =>
      rw [List.cons_append, scanFrom_skipped skipped, scanFrom_skipped skipped]
      exact ih
  | case3 column first rest visible tail following ih =>
      have other : first ≠ '\r' := by
        rintro rfl
        exact visible isSkipped_return
      have after : (rest ++ ['\r']).drop (longest first rest).2.length = following ++ ['\r'] :=
        List.drop_append_of_le_length (longest_starts first rest).length_le
      have blank : (following ++ ['\r']).head?.all Text.isBlank =
          following.head?.all Text.isBlank := by
        cases following <;> rfl
      rw [List.cons_append, scanFrom, if_neg visible]
      rcases longest_return other rest with same | left
      · rw [same]
        simp only [after, blank]
        rcases ih with onward | ⟨last, ends, unknown⟩
        · left
          rw [scanFrom, if_neg visible]
          exact congrArg (_ :: ·) onward
        · right
          refine ⟨last, ?_, unknown⟩
          rw [List.getLast?_cons]
          exact congrArg (fun found : Option Lexeme => some (found.getD _)) ends
      · right
        rw [left]
        simp only [List.drop_length]
        rw [scanFrom]
        exact ⟨_, rfl, rfl⟩

theorem scanLine_withoutReturn (number : Nat) (line : List Char) :
    scanLine number (Text.withoutReturn line) = scanLine number line ∨
      ∃ last, (scanLine number line).getLast? = some last ∧ last.isRecognized = false := by
  unfold Text.withoutReturn
  split
  next ends =>
    obtain ⟨before, rfl⟩ := List.getLast?_eq_some_iff.mp ends
    rw [List.dropLast_concat]
    rcases scanFrom_return number 0 before with same | left
    · exact Or.inl same.symm
    · exact Or.inr left
  next => exact Or.inl rfl

theorem scan_append_newline {text : List Char} {last : Lexeme}
    (ends : (scan text).getLast? = some last) (recognized : last.isRecognized = true)
    (unended : text.getLast? ≠ some '\n') (rest : List Char) :
    scan (text ++ '\n' :: rest) =
      scan text ++ (scan rest).map (lowered (Text.lines text).length) := by
  have present : text ≠ [] := by
    rintro rfl
    cases ends
  obtain ⟨earlier, line, _, alone, followed⟩ := Text.lines_append_newline present unended
  have own : scan text = scanLines 0 earlier ++ scanLine (0 + earlier.length) line := by
    unfold scan
    rw [alone, scanLines_append, scanLines, scanLines, List.append_nil]
  have same : scanLine (0 + earlier.length) (Text.withoutReturn line) =
      scanLine (0 + earlier.length) line := by
    rcases scanLine_withoutReturn (0 + earlier.length) line with same | ⟨other, there, unknown⟩
    · exact same
    · rw [own, List.getLast?_append, there] at ends
      cases ends
      rw [recognized] at unknown
      cases unknown
  have count : (Text.lines text).length = earlier.length + 1 := by
    rw [alone, List.length_append, List.length_singleton]
  have further : scanLines (0 + earlier.length + 1) (Text.lines rest) =
      (scan rest).map (lowered (Text.lines text).length) := by
    rw [Nat.add_assoc, ← count, scanLines_lowered]
    rfl
  rw [own, ← further]
  unfold scan
  rw [followed, scanLines_append, scanLines, same, List.append_assoc]

end CobolAnalysis.Lexeme
