/-
The names of a line are the words under the cursor.

Scanning looks for the longest lexeme from the left, the cursor for a run of word characters to both
sides, which it trims. On a line of ASCII characters without underscores the two agree: what stands
before a scanned name are hyphens and, before those, a character of no name, and no character of a
name follows. So the cursor finds a name at each of its columns, unless it ends with a hyphen, and
the symbols of that name with it.
-/

import Mathlib.Data.Bool.AllAny
import CobolAnalysis.Proofs.Lexemes.LongestMatch
import CobolAnalysis.Proofs.Merging
import CobolAnalysis.Proofs.Parse.Places
import CobolAnalysis.Proofs.Text.LetterCase
import CobolAnalysis.Proofs.Words.Boundaries

namespace CobolAnalysis

namespace Lexeme

/-! ### What stands around a name -/

/-- At the end of the text stand hyphens at most, and before those no character of a name. -/
def Detached (text : List Char) : Prop :=
  ∃ earlier hyphens, text = earlier ++ hyphens ∧ (∀ character ∈ hyphens, character = '-') ∧
    ∀ last, earlier.getLast? = some last → isNameCharacter last = false

theorem Detached.hyphen {text : List Char} (detached : Detached text) :
    Detached (text ++ ['-']) := by
  obtain ⟨earlier, hyphens, rfl, only, apart⟩ := detached
  refine ⟨earlier, hyphens ++ ['-'], List.append_assoc _ _ _, ?_, apart⟩
  intro character member
  rcases List.mem_append.mp member with before | last
  · exact only character before
  · exact List.mem_singleton.mp last

theorem detached_of_last {text : List Char}
    (other : ∀ last, text.getLast? = some last → isNameCharacter last = false) :
    Detached text := by
  refine ⟨text, [], (List.append_nil _).symm, ?_, other⟩
  simp

theorem detached_append {taken : List Char} (text : List Char) (present : taken ≠ [])
    (other : ∀ character ∈ taken, isNameCharacter character = false) :
    Detached (text ++ taken) := by
  apply detached_of_last
  intro last ends
  rw [List.getLast?_append_of_ne_nil _ present] at ends
  exact other last (List.mem_of_getLast? ends)

theorem not_isNameCharacter_of_isQuote {character : Char}
    (quotes : Source.isQuote character = true) : isNameCharacter character = false := by
  apply Bool.eq_false_iff.mpr
  intro belongs
  rw [isQuote_of_isNameCharacter belongs] at quotes
  cases quotes

theorem not_isNameCharacter_of_isOperator {character : Char}
    (operator : isOperator character = true) : isNameCharacter character = false := by
  rcases operator_cases operator with rfl | rfl | rfl | rfl | rfl | rfl | rfl | rfl <;> decide

theorem not_isNameCharacter_of_isSkipped {character : Char}
    (skipped : isSkipped character = true) : isNameCharacter character = false := by
  apply Bool.eq_false_iff.mpr
  intro belongs
  rw [isSkipped_of_isNameCharacter belongs] at skipped
  cases skipped

theorem eq_hyphen_of_not_isNameStart {character : Char} (other : ¬isNameStart character = true)
    (plain : character ≠ '_') (belongs : isNameCharacter character = true) : character = '-' := by
  unfold isNameStart at other
  unfold isNameCharacter at belongs
  simpa [other, plain] using belongs

theorem stops_behind_takeWhile {belongs : Char → Bool} {text : List Char} {next : Char}
    (follows : (text.drop (text.takeWhile belongs).length).head? = some next) :
    belongs next = false := by
  have behind : text.drop (text.takeWhile belongs).length = text.dropWhile belongs := by
    have split := congrArg (List.drop (text.takeWhile belongs).length)
      (List.takeWhile_append_dropWhile (p := belongs) (l := text))
    rw [List.drop_left] at split
    exact split.symm
  have stops := List.head?_dropWhile_not belongs text
  rw [← behind, follows] at stops
  exact stops

theorem longest_of_other {first : Char} (noName : ¬isNameStart first = true)
    (noQuote : ¬Source.isQuote first = true) (noOperator : ¬isOperator first = true)
    (rest : List Char) : (longest first rest).2 = [] := by
  unfold longest
  rw [if_neg noName, if_neg noQuote, if_neg noOperator]
  split_ifs <;> rfl

/-- Where a name could go on behind a lexeme, it is not the end of one: a name takes all of its own
characters, and hyphens leave what stands before them as it is. -/
theorem detached_past {text rest : List Char} {first next : Char} (plain : first ≠ '_')
    (before : isNameCharacter first = true → Detached text)
    (follows : (rest.drop (longest first rest).2.length).head? = some next)
    (belongs : isNameCharacter next = true) :
    Detached (text ++ first :: (longest first rest).2) := by
  by_cases starts : isNameStart first = true
  · rw [longest_of_isNameStart starts] at follows
    rw [stops_behind_takeWhile follows] at belongs
    cases belongs
  by_cases quotes : Source.isQuote first = true
  · rw [longest_of_isQuote quotes] at follows ⊢
    by_cases closed : rest.contains first = true
    · rw [if_pos closed]
      apply detached_of_last
      intro last ends
      rw [← List.cons_append, ← List.append_assoc, List.getLast?_concat] at ends
      cases ends
      exact not_isNameCharacter_of_isQuote quotes
    · rw [if_neg closed, List.drop_length] at follows
      cases follows
  by_cases operator : isOperator first = true
  · rw [longest_of_isOperator operator]
    apply detached_append text (List.cons_ne_nil _ _)
    intro character member
    apply not_isNameCharacter_of_isOperator
    rcases List.mem_cons.mp member with rfl | further
    · exact operator
    · exact List.all_eq_true.mp List.all_takeWhile character further
  rw [longest_of_other starts quotes operator]
  by_cases name : isNameCharacter first = true
  · rw [eq_hyphen_of_not_isNameStart starts plain name]
    exact (before name).hyphen
  · apply detached_append text (List.cons_ne_nil _ _)
    simpa using name

theorem exists_detached_of_mem {number column : Nat} {text : List Char} {lexeme : Lexeme}
    (member : lexeme ∈ scanFrom number column text) (plain : '_' ∉ text) :
    ∀ behind : List Char, behind.length = column →
      (∀ next, text.head? = some next → isNameCharacter next = true → Detached behind) →
        ∃ before first rest, behind ++ text = before ++ first :: rest ∧
          (isNameCharacter first = true → Detached before) ∧
            lexeme = takenAt number before.length first rest := by
  induction column, text using scanFrom.induct with
  | case1 => simp [scanFrom] at member
  | case2 column first rest skipped ih =>
      rw [scanFrom_skipped skipped] at member
      rw [List.mem_cons, not_or] at plain
      intro behind length apart
      have further := ih member plain.2 (behind ++ [first]) (by
        rw [List.length_append, length]
        rfl) fun _ _ _ => detached_append behind (List.cons_ne_nil _ _) (by
          simpa using not_isNameCharacter_of_isSkipped skipped)
      rw [List.append_assoc] at further
      exact further
  | case3 column first rest visible tail following ih =>
      rw [scanFrom_visible visible] at member
      rw [List.mem_cons, not_or] at plain
      intro behind length apart
      rcases List.mem_cons.mp member with rfl | later
      · exact ⟨behind, first, rest, rfl, apart first rfl, by rw [length]⟩
      · have whole : behind ++ first :: tail ++ following = behind ++ first :: rest := by
          rw [List.append_assoc]
          exact congrArg (fun after => behind ++ first :: after) (longest_append_drop first rest)
        have further := ih later (fun inside => plain.2 (List.mem_of_mem_drop inside))
          (behind ++ first :: tail) (by
            rw [List.length_append, List.length_cons, length]
            omega) fun next follows belongs =>
              detached_past (Ne.symm plain.1) (apart first rfl) follows belongs
        rw [whole] at further
        exact further

theorem exists_surroundings {line : List Char} {lexeme : Lexeme}
    (oneLine : '\n' ∉ line) (plain : '_' ∉ line) (member : lexeme ∈ scan line)
    (name : lexeme.isName = true) :
    ∃ before hyphens after, line = before ++ hyphens ++ (lexeme.text ++ after) ∧
      lexeme.column = (before ++ hyphens).length ∧
      (∀ character ∈ hyphens, character = '-') ∧
      (∀ last, before.getLast? = some last → isNameCharacter last = false) ∧
      (∀ next, after.head? = some next → isNameCharacter next = false) ∧
      (∀ character ∈ lexeme.text, isNameCharacter character = true) ∧
        lexeme.text.head? ≠ some '-' := by
  obtain ⟨number, raw, there, scanned⟩ := mem_scanLines_iff.mp member
  have present : line ≠ [] := by
    rintro rfl
    cases there
  rw [Text.lines_single oneLine present] at there
  have same : raw = line := by
    cases number with
    | zero => exact (Option.some.inj there).symm
    | succ number => cases there
  subst same
  obtain ⟨before, first, rest, whole, apart, rfl⟩ :=
    exists_detached_of_mem scanned plain [] rfl fun _ _ _ => detached_of_last (by simp)
  have recognized : (longest first rest).1 ≠ .unrecognized := by
    intro unknown
    rcases (isName_iff_kind _).mp name with word | integer
    · exact LexemeKind.noConfusion (unknown.symm.trans word)
    · exact LexemeKind.noConfusion (unknown.symm.trans integer)
  obtain ⟨starts, goesOn⟩ := (spells_longest first rest recognized).name
    ((isName_iff_kind _).mp name)
  have belongs := isNameCharacter_of_isNameStart starts
  obtain ⟨earlier, hyphens, rfl, only, alone⟩ := apart belongs
  refine ⟨earlier, hyphens, rest.drop (longest first rest).2.length, ?_, rfl, only, alone, ?_, ?_, ?_⟩
  · rw [← List.nil_append raw, whole]
    exact congrArg (fun after => earlier ++ hyphens ++ first :: after)
      (longest_append_drop first rest).symm
  · intro next follows
    rw [longest_of_isNameStart starts] at follows
    exact stops_behind_takeWhile follows
  · intro character inside
    rcases List.mem_cons.mp inside with rfl | further
    · exact belongs
    · exact List.all_eq_true.mp goesOn character further
  · intro hyphen
    cases hyphen
    exact absurd starts (by decide)

end Lexeme

namespace Word

theorem isWordCharacter_of_ascii {character : Char} (ascii : character.toNat < 0x80) :
    isWordCharacter character = Lexeme.isNameCharacter character := if_pos ascii

end Word

/-! ### Symbols of a parsed document -/

namespace Parse

theorem capitals_ofFindings {findings : List Finding} {key : SymbolKey}
    (member : key ∈ (ParsedDocument.ofFindings findings).context.symbols.keys) :
    Text.upper key.name = key.name := by
  rw [Context.mem_keys_iff, knows_ofFindings] at member
  obtain ⟨finding, _, told⟩ := member
  cases finding with
  | problem diagnostic => cases told
  | definition kind written location =>
      cases told
      exact Text.upper_upper written
  | usage kind written location =>
      cases told
      exact Text.upper_upper written
  | copy reference =>
      cases told
      exact Text.upper_upper reference.name.text

theorem mem_lookup_ofFindings {findings : List Finding} (written : List Char)
    (entry : SymbolKey × Occurrences) :
    entry ∈ (ParsedDocument.ofFindings findings).context.lookup written ↔
      entry ∈ (ParsedDocument.ofFindings findings).context.symbols.entries ∧
        Text.sameLetters entry.1.name written = true := by
  rw [Context.mem_lookup_iff]
  apply and_congr_right
  intro listed
  unfold Text.sameLetters
  rw [beq_iff_eq, capitals_ofFindings (List.mem_map_of_mem listed)]

theorem exists_mem_lookup_of_definition {findings : List Finding} {kind : SymbolKind}
    {written name : List Char} {location : Location}
    (defined : .definition kind written location ∈ findings)
    (same : Text.sameLetters written name = true) :
    ∃ found, (.ofWritten kind written, found) ∈
        (ParsedDocument.ofFindings findings).context.lookup name ∧
      location ∈ found.definitions := by
  have known : (ParsedDocument.ofFindings findings).context.Knows
      (.definedAt (.ofWritten kind written) location) := by
    rw [knows_ofFindings]
    exact ⟨_, defined, rfl, OrderedSet.mem_insert_self _ _⟩
  obtain ⟨_, found, held, rfl, there⟩ := known
  refine ⟨found, ?_, there⟩
  rw [Context.mem_lookup_iff]
  exact ⟨(Table.get?_eq_some_iff _ _ _).mp held, beq_iff_eq.mp same⟩

end Parse

/-! ### Names under the cursor -/

open Parse (Setting findingsOf)

/-- On a line of ASCII characters without underscores, the word at each column of a scanned name is
that name, unless it ends with a hyphen. So looking up the word finds what a document defines under
this name in any letter case, and just the symbols of this name. -/
theorem cursor_finds_scanned_names {line : List Char}
    (plain : ∀ character ∈ line, character.toNat < 0x80 ∧ character ≠ '_' ∧ character ≠ '\n')
    {lexeme : Lexeme} (member : lexeme ∈ Lexeme.scan line) (name : lexeme.isName = true)
    (ends : lexeme.text.getLast? ≠ some '-') {column : Nat} (right : lexeme.column ≤ column)
    (left : column < lexeme.column + lexeme.text.length) :
    Word.at? line column = some lexeme.text ∧
      ∀ (setting : Setting) (text : List Char),
        let context := (Parse.document setting.uri text setting.format setting.options).context
        (∀ kind written location, .definition kind written location ∈ findingsOf setting text →
          Text.sameLetters written lexeme.text = true →
            ∃ found, (.ofWritten kind written, found) ∈ context.lookup lexeme.text ∧
              location ∈ found.definitions) ∧
        ∀ entry, entry ∈ context.lookup lexeme.text ↔
          entry ∈ context.symbols.entries ∧ Text.sameLetters entry.1.name lexeme.text = true := by
  constructor
  · obtain ⟨before, hyphens, after, whole, place, only, leftEnd, rightEnd, all, begins⟩ :=
      Lexeme.exists_surroundings (fun inside => (plain _ inside).2.2 rfl)
        (fun inside => (plain _ inside).2.1 rfl) member name
    have ascii : ∀ character ∈ line,
        Word.isWordCharacter character = Lexeme.isNameCharacter character :=
      fun character inside => Word.isWordCharacter_of_ascii (plain character inside).1
    rw [whole] at ascii ⊢
    rw [place] at right left
    apply Word.at?_of_middle _ only begins ends _ _ right left
    · intro character inside
      rw [ascii character (by simp [inside])]
      exact all character inside
    · intro last there
      rw [ascii last (by simp [List.mem_of_getLast? there])]
      exact leftEnd last there
    · intro next there
      rw [ascii next (by simp [List.mem_of_head? there])]
      exact rightEnd next there
  · intro setting text
    exact ⟨fun kind written location => Parse.exists_mem_lookup_of_definition,
      Parse.mem_lookup_ofFindings lexeme.text⟩

namespace Sample

def expression : List Char := "COMPUTE X = -net-1*2".toList

def net : Lexeme := ⟨.word, "net-1".toList, 0, 13, false⟩

def account : Setting := ⟨"root", .fixed, ⟨true, true⟩⟩

end Sample

/-- The cursor on the hyphen inside the name finds the item that a document defines in capitals. -/
theorem sample_cursor_finds_scanned_names :
    (∀ character ∈ Sample.expression,
        character.toNat < 0x80 ∧ character ≠ '_' ∧ character ≠ '\n') ∧
      Sample.net ∈ Lexeme.scan Sample.expression ∧
      Word.at? Sample.expression 16 = some "net-1".toList ∧
      ∃ found, (⟨.dataItem, "NET-1".toList⟩, found) ∈
          (Parse.document "root" "01 Net-1.".toList .fixed ⟨true, true⟩).context.lookup
            "net-1".toList ∧
        ⟨"root", .onLine 0 3 5⟩ ∈ found.definitions := by
  have plain : ∀ character ∈ Sample.expression,
      character.toNat < 0x80 ∧ character ≠ '_' ∧ character ≠ '\n' :=
    -- Deciding the statement itself would go through every character there is.
    List.all_iff_forall_prop.mp (by decide +kernel)
  have scanned : Sample.net ∈ Lexeme.scan Sample.expression := by decide +kernel
  have defined : .definition .dataItem "Net-1".toList ⟨"root", .onLine 0 3 5⟩ ∈
      findingsOf Sample.account "01 Net-1.".toList := by decide +kernel
  have right : Sample.net.column ≤ 16 := by decide
  obtain ⟨word, looked⟩ := cursor_finds_scanned_names plain scanned (by decide) (by decide) right
    (by decide)
  obtain ⟨found, _⟩ := looked Sample.account "01 Net-1.".toList
  exact ⟨plain, scanned, word, found _ _ _ defined (by decide)⟩

end CobolAnalysis
