/-
Parsing has no regard to letter case.

Scanned in capitals, a text has the same lexemes in capitals. Whatever the parser asks of a
lexeme, it asks without regard to case, but for the digits of an integer, which have none. So it
finds the same: symbols are recorded in capitals anyway, and where a message quotes the text, it
differs in letter case only.
-/

import CobolAnalysis.Proofs.Lexemes
import CobolAnalysis.Proofs.LogicalNames
import CobolAnalysis.Proofs.Parse.Questions
import CobolAnalysis.Proofs.Source.LetterCase

namespace CobolAnalysis

open Text (upper Caseless)

namespace Lexeme

def capitals (lexeme : Lexeme) : Lexeme := { lexeme with text := upper lexeme.text }

/-! ### Scanning -/

theorem isSkipped_toUpper (character : Char) :
    isSkipped character.toUpper = isSkipped character := by
  simp (disch := decide) only [isSkipped, Caseless.toUpper_beq]

theorem isAlphanum_toUpper (character : Char) :
    character.toUpper.isAlphanum = character.isAlphanum := by
  refine Text.toUpper_congr true (fun letter notCaseless => ?_) character
  unfold Text.Caseless at notCaseless
  rw [isAlphanum_iff]
  omega

theorem isDigit_toUpper (character : Char) : character.toUpper.isDigit = character.isDigit := by
  refine Text.toUpper_congr false (fun letter notCaseless => ?_) character
  unfold Text.Caseless at notCaseless
  rw [← Bool.not_eq_true, isDigit_iff]
  omega

theorem isNameCharacter_toUpper (character : Char) :
    isNameCharacter character.toUpper = isNameCharacter character := by
  simp (disch := decide) only [isNameCharacter, Caseless.toUpper_beq, isAlphanum_toUpper]

theorem isOperator_toUpper (character : Char) :
    isOperator character.toUpper = isOperator character := by
  simp (disch := decide) only [isOperator, Caseless.toUpper_beq]

theorem takeWhile_upper {belongs : Char → Bool}
    (same : ∀ character : Char, belongs character.toUpper = belongs character)
    (text : List Char) : (upper text).takeWhile belongs = upper (text.takeWhile belongs) := by
  unfold upper
  rw [List.takeWhile_map]
  exact congrArg (fun belongs => (text.takeWhile belongs).map Char.toUpper) (funext same)

theorem all_upper {holds : Char → Bool}
    (same : ∀ character : Char, holds character.toUpper = holds character) (text : List Char) :
    (upper text).all holds = text.all holds := by
  unfold upper
  rw [List.all_map]
  exact congrArg text.all (funext same)

theorem longest_upper (first : Char) (rest : List Char) :
    longest first.toUpper (upper rest) =
      ((longest first rest).1, upper (longest first rest).2) := by
  have tail := takeWhile_upper isNameCharacter_toUpper rest
  have digits : (first.toUpper :: upper (rest.takeWhile isNameCharacter)).all Char.isDigit =
      (first :: rest.takeWhile isNameCharacter).all Char.isDigit :=
    all_upper isDigit_toUpper (first :: rest.takeWhile isNameCharacter)
  have mark : ∀ {other : Char}, Caseless other → (first.toUpper = other ↔ first = other) :=
    fun caseless => caseless.toUpper_eq_iff first
  unfold longest isNameStart
  rw [isAlphanum_toUpper, Source.isQuote_toUpper, isOperator_toUpper, tail,
    takeWhile_upper isOperator_toUpper]
  simp only [digits, mark (show Caseless '.' by decide), mark (show Caseless '(' by decide),
    mark (show Caseless ')' by decide)]
  split
  · rfl
  split
  next quote =>
    have caseless := Source.caseless_of_isQuote quote
    have inside : (upper rest).takeWhile (· != first) = upper (rest.takeWhile (· != first)) :=
      takeWhile_upper (fun character => congrArg not (caseless.toUpper_beq character)) rest
    rw [caseless.toUpper, Source.contains_upper caseless, inside]
    split
    · refine Prod.ext rfl ?_
      change _ = upper (rest.takeWhile (· != first) ++ [first])
      rw [Source.Stage.upper_append]
      exact congrArg (_ ++ [·]) caseless.toUpper.symm
    · rfl
  next =>
    split
    · rfl
    split
    · rfl
    split
    · rfl
    split <;> rfl

theorem scanFrom_upper (number column : Nat) (text : List Char) :
    scanFrom number column (upper text) = (scanFrom number column text).map capitals := by
  induction column, text using scanFrom.induct with
  | case1 => simp [scanFrom, upper]
  | case2 column first rest skipped ih =>
      change scanFrom number column (first.toUpper :: upper rest) = _
      rw [scanFrom, scanFrom, if_pos skipped, if_pos ((isSkipped_toUpper first).trans skipped), ih]
  | case3 column first rest visible tail following ih =>
      have still : ¬isSkipped first.toUpper = true := by
        rw [isSkipped_toUpper]
        exact visible
      let width := (longest first rest).2.length
      have after : (upper rest).drop width = upper (rest.drop width) := List.map_drop.symm
      have length : (upper (longest first rest).2).length = width := List.length_map _
      have blank : (upper (rest.drop width)).head?.all Text.isBlank =
          (rest.drop width).head?.all Text.isBlank := by
        cases rest.drop width with
        | nil => rfl
        | cons next others => exact Text.isBlank_toUpper next
      have onward : scanFrom number (column + 1 + width) (upper (rest.drop width)) =
          (scanFrom number (column + 1 + width) (rest.drop width)).map capitals := ih
      change scanFrom number column (first.toUpper :: upper rest) = _
      rw [scanFrom, scanFrom, if_neg visible, if_neg still, longest_upper]
      simp only [length, after, blank, onward]
      rfl

theorem scanLines_upper (number : Nat) (lines : List (List Char)) :
    scanLines number (lines.map upper) = (scanLines number lines).map capitals := by
  induction lines generalizing number with
  | nil => rfl
  | cons line rest ih =>
      rw [List.map_cons, scanLines, scanLines, List.map_append, ih]
      exact congrArg (· ++ _) (scanFrom_upper number 0 line)

theorem scan_upper (text : List Char) : scan (upper text) = (scan text).map capitals := by
  unfold scan
  rw [Text.lines_upper, scanLines_upper]

/-! ### Questions about a lexeme -/

theorem sameLetters_upper (text other : List Char) :
    Text.sameLetters (upper text) other = Text.sameLetters text other := by
  unfold Text.sameLetters
  rw [Text.upper_upper]

theorem keepsAnswers_capitals : KeepsAnswers capitals where
  kind := fun _ => rfl
  beforeBlank := fun _ => rfl
  column := fun _ => rfl
  letters := fun lexeme other => sameLetters_upper lexeme.text other

theorem location_capitals (lexeme : Lexeme) (uri : String) :
    lexeme.capitals.location uri = lexeme.location uri := by
  change Location.mk uri (Span.onLine lexeme.line lexeme.column (upper lexeme.text).length) = _
  unfold upper
  rw [List.length_map]
  rfl

/-- The digits of an integer have no letter case. -/
def Digital (lexeme : Lexeme) : Prop := lexeme.kind = .integer → upper lexeme.text = lexeme.text

theorem upper_of_digits {text : List Char} (digits : text.all Char.isDigit = true) :
    upper text = text := by
  have caseless : ∀ character ∈ text, character.toUpper = character := by
    intro character member
    have digit := (isDigit_iff character).mp (List.all_eq_true.mp digits character member)
    exact Caseless.toUpper ⟨by omega, by omega⟩
  exact (List.map_congr_left caseless).trans (List.map_id text)

theorem digits_of_longest {first : Char} {rest : List Char}
    (integer : (longest first rest).1 = .integer) :
    (first :: (longest first rest).2).all Char.isDigit = true := by
  unfold longest at *
  by_cases starts : isNameStart first = true
  · simp only [if_pos starts] at integer ⊢
    split at integer
    next digits => exact digits
    next => cases integer
  · rw [if_neg starts] at integer
    repeat' split at integer
    all_goals cases integer

theorem digital_of_mem_scanFrom {number column : Nat} {text : List Char} {lexeme : Lexeme}
    (member : lexeme ∈ scanFrom number column text) : lexeme.Digital := by
  induction column, text using scanFrom.induct with
  | case1 => simp [scanFrom] at member
  | case2 column first rest skipped ih =>
      rw [scanFrom, if_pos skipped] at member
      exact ih member
  | case3 column first rest visible tail following ih =>
      rw [scanFrom, if_neg visible] at member
      rcases List.mem_cons.mp member with rfl | later
      · exact fun integer => upper_of_digits (digits_of_longest integer)
      · exact ih later

theorem digital_of_mem_scan {text : List Char} {lexeme : Lexeme} (member : lexeme ∈ scan text) :
    lexeme.Digital := by
  have all : ∀ (lines : List (List Char)) (number : Nat),
      ∀ lexeme ∈ scanLines number lines, lexeme.Digital := by
    intro lines
    induction lines with
    | nil => exact fun _ => List.forall_mem_nil _
    | cons line rest ih =>
        exact fun number => List.forall_mem_append.mpr
          ⟨fun _ here => digital_of_mem_scanFrom here, ih (number + 1)⟩
  exact all _ 0 lexeme member

end Lexeme

/-! ### Findings -/

def Diagnostic.capitals (diagnostic : Diagnostic) : Diagnostic :=
  { diagnostic with message := String.ofList (upper diagnostic.message.toList) }

namespace LogicalName

def errorCapitals : NameError → NameError
  | .empty => .empty
  | .blankInside text => .blankInside (upper text)

theorem parse_upper (written : List Char) :
    parse (upper written) = (parse written).mapError errorCapitals := by
  have empty : (upper (bare written)).isEmpty = (bare written).isEmpty := List.isEmpty_map
  unfold parse
  simp only [bare_upper, any_isBlank_upper, empty, Text.upper_upper]
  split
  · rfl
  · split <;> rfl

theorem upper_message (error : NameError) :
    upper (errorCapitals error).message.toList = upper error.message.toList := by
  cases error with
  | empty => rfl
  | blankInside text =>
      unfold errorCapitals NameError.message
      simp only [String.toList_append, String.toList_ofList, Source.Stage.upper_append,
        Text.Quoted.upper_quote]

end LogicalName

namespace Parse

def Finding.capitals : Finding → Finding
  | problem diagnostic => problem diagnostic.capitals
  | definition kind written location => definition kind (upper written) location
  | usage kind written location => usage kind (upper written) location
  | copy reference => copy reference

/-- The same is found, but for letter case. -/
def SameFindings (findings others : List Finding) : Prop :=
  findings.map Finding.capitals = others.map Finding.capitals

theorem SameFindings.cons {finding other : Finding} {findings others : List Finding}
    (here : finding.capitals = other.capitals) (later : SameFindings findings others) :
    SameFindings (finding :: findings) (other :: others) := by
  unfold SameFindings at *
  rw [List.map_cons, List.map_cons, here, later]

theorem SameFindings.append {first second others further : List Finding}
    (here : SameFindings first others) (later : SameFindings second further) :
    SameFindings (first ++ second) (others ++ further) := by
  unfold SameFindings at *
  rw [List.map_append, List.map_append, here, later]

theorem definition_capitals (kind : SymbolKind) (lexeme : Lexeme) (uri : String) :
    SameFindings [.definition kind lexeme.capitals.text (lexeme.capitals.location uri)]
      [.definition kind lexeme.text (lexeme.location uri)] := by
  rw [lexeme.location_capitals]
  exact congrArg (fun written => [Finding.definition kind written _]) (Text.upper_upper _)

namespace Sentence

theorem level?_capitals {first : Lexeme} (digital : first.Digital) (inProcedure : Bool) :
    level? inProcedure first.capitals = level? inProcedure first := by
  by_cases integer : first.kind = .integer
  · have same : first.capitals = first := by
      unfold Lexeme.capitals
      rw [digital integer]
    rw [same]
  · unfold level?
    have none : (first.kind == .integer) = false := beq_eq_false_iff_ne.mpr integer
    change (if !inProcedure && first.kind == .integer && _ then _ else _) = _
    rw [none]
    simp

theorem dataEntry_capitals (setting : Setting) (first : Lexeme) (level : Nat)
    (rest : List Lexeme) :
    SameFindings (dataEntry setting first.capitals level (rest.map Lexeme.capitals))
      (dataEntry setting first level rest) := by
  unfold dataEntry
  split
  · cases rest with
    | nil => rfl
    | cons name others =>
        change SameFindings (if name.kind == .word && !name.capitals.isAnyOf dataClauses then _
          else _) _
        rw [Lexeme.keepsAnswers_capitals.isAnyOf]
        simp only [List.head?_cons]
        split
        · exact definition_capitals .dataItem name setting.uri
        · rfl
  · rw [first.location_capitals]
    rfl

theorem findings_capitals (setting : Setting) (inProcedure : Bool) {first : Lexeme}
    (digital : first.Digital) (rest : List Lexeme) :
    SameFindings (findings setting inProcedure first.capitals (rest.map Lexeme.capitals))
      (findings setting inProcedure first rest) := by
  unfold findings
  rw [level?_capitals digital]
  cases level? inProcedure first with
  | some level => exact dataEntry_capitals setting first level rest
  | none =>
      simp only [procedureName]
      rw [beginsSection_map Lexeme.keepsAnswers_capitals,
        beginsParagraph_map Lexeme.keepsAnswers_capitals]
      change SameFindings (if first.isName && inAreaA setting.format first then _ else _) _
      split
      · split
        · exact definition_capitals .procedureSection first setting.uri
        split
        · exact definition_capitals .paragraph first setting.uri
        · rfl
      · rfl

end Sentence

namespace Transfer

theorem findings_capitals (uri : String) (word : Lexeme) (rest : List Lexeme) :
    SameFindings (findings uri word.capitals (rest.map Lexeme.capitals))
      (findings uri word rest) := by
  unfold SameFindings findings
  rw [targets_map Lexeme.keepsAnswers_capitals, List.map_map, List.map_map, List.map_map]
  refine congrArg (List.map · _) (funext fun target => ?_)
  change Finding.usage .paragraph (upper (upper target.text)) (target.capitals.location uri) = _
  rw [Text.upper_upper, target.location_capitals]
  rfl

end Transfer

/-! ### COPY statements -/

namespace CopyStatement

theorem finding_capitals (uri : String) (copy : Lexeme) (rest : List Lexeme) :
    (finding uri copy.capitals (rest.map Lexeme.capitals)).capitals =
      (finding uri copy rest).capitals := by
  unfold finding
  rw [operand?_map Lexeme.keepsAnswers_capitals, copy.location_capitals]
  cases operand? rest with
  | none => rfl
  | some operand =>
      have written : LogicalName.parse operand.capitals.text =
          (LogicalName.parse operand.text).mapError LogicalName.errorCapitals :=
        LogicalName.parse_upper operand.text
      simp only [Option.map_some, operand.location_capitals, written]
      cases LogicalName.parse operand.text with
      | ok name => rfl
      | error failure =>
          have same := LogicalName.upper_message failure
          simp only [show (Except.error failure : Except NameError LogicalName).mapError
            LogicalName.errorCapitals = .error (LogicalName.errorCapitals failure) from rfl,
            Finding.capitals, Diagnostic.capitals, Diagnostic.error, String.toList_append,
            Source.Stage.upper_append, same]

end CopyStatement

/-! ### The walk -/

def Progress.capitals (progress : Progress) : Progress :=
  { progress with previous := progress.previous.map Lexeme.capitals }

theorem inProcedureAt_capitals (progress : Progress) (lexeme : Lexeme) :
    progress.capitals.inProcedureAt lexeme.capitals = progress.inProcedureAt lexeme := by
  obtain ⟨previous, atSentenceStart, inProcedure⟩ := progress
  cases previous with
  | none => rfl
  | some previous =>
      change (if lexeme.capitals.isWord "DIVISION" then previous.capitals.isWord "PROCEDURE"
        else inProcedure) = _
      rw [Lexeme.keepsAnswers_capitals.isWord, Lexeme.keepsAnswers_capitals.isWord]
      rfl

theorem past_capitals (progress : Progress) (lexeme : Lexeme) :
    progress.capitals.past lexeme.capitals = (progress.past lexeme).capitals := by
  unfold Progress.past
  rw [inProcedureAt_capitals]
  rfl

theorem pastCopy_capitals (progress : Progress) (copy : Lexeme) (operands : List Lexeme) :
    progress.capitals.pastCopy copy.capitals (operands.map Lexeme.capitals) =
      (progress.pastCopy copy operands).capitals := by
  unfold Progress.pastCopy
  have last : (operands.map Lexeme.capitals).getLastD copy.capitals =
      (operands.getLastD copy).capitals := by
    rw [List.getLastD_eq_getLast?, List.getLastD_eq_getLast?, List.getLast?_map]
    cases operands.getLast? <;> rfl
  rw [last]
  rfl

theorem unexpected_capitals (uri : String) (lexeme : Lexeme) :
    (unexpected uri lexeme.capitals).capitals = (unexpected uri lexeme).capitals := by
  unfold unexpected
  rw [lexeme.location_capitals]
  have text : upper lexeme.capitals.text = upper lexeme.text := Text.upper_upper _
  simp only [Finding.capitals, Diagnostic.capitals, Diagnostic.warning, String.toList_append,
    Source.Stage.upper_append, String.toList_ofList, text]

theorem findingsAt_capitals (setting : Setting) (progress : Progress) {lexeme : Lexeme}
    (digital : lexeme.Digital) (rest : List Lexeme) :
    SameFindings (findingsAt setting progress.capitals lexeme.capitals (rest.map Lexeme.capitals))
      (findingsAt setting progress lexeme rest) := by
  unfold findingsAt
  rw [inProcedureAt_capitals]
  refine SameFindings.append ?_ ?_
  · change SameFindings (if progress.atSentenceStart then _ else _) _
    split
    · exact Sentence.findings_capitals setting _ digital rest
    · rfl
  · split
    · exact Transfer.findings_capitals setting.uri lexeme rest
    · rfl

/-- Lexemes in capitals are walked over with the same findings. -/
theorem walk_capitals (setting : Setting) {progress : Progress} {lexemes : List Lexeme}
    (digital : ∀ lexeme ∈ lexemes, lexeme.Digital) :
    SameFindings (walk setting progress.capitals (lexemes.map Lexeme.capitals))
      (walk setting progress lexemes) := by
  induction progress, lexemes using walk.induct with
  | case1 progress =>
      rw [List.map_nil, walk, walk]
      rfl
  | case2 progress lexeme rest unknown ih =>
      have stillUnknown : (!lexeme.capitals.isRecognized) = true := unknown
      rw [List.map_cons, walk, walk, if_pos unknown, if_pos stillUnknown]
      exact .cons (unexpected_capitals setting.uri lexeme)
        (ih (List.forall_mem_cons.mp digital).2)
  | case3 progress lexeme rest recognized copy ih =>
      have stillRecognized : ¬(!lexeme.capitals.isRecognized) = true := recognized
      have isCopy : lexeme.capitals.isWord "COPY" = true :=
        (Lexeme.keepsAnswers_capitals.isWord lexeme "COPY").trans copy
      rw [List.map_cons, walk, walk, if_neg recognized, if_neg stillRecognized, if_pos copy,
        if_pos isCopy, CopyStatement.extent_map Lexeme.keepsAnswers_capitals, ← List.map_take, ← List.map_drop,
        pastCopy_capitals]
      refine .cons (CopyStatement.finding_capitals setting.uri lexeme rest) (ih ?_)
      exact fun other member =>
        (List.forall_mem_cons.mp digital).2 other (List.mem_of_mem_drop member)
  | case4 progress lexeme rest recognized other ih =>
      obtain ⟨here, later⟩ := List.forall_mem_cons.mp digital
      have stillRecognized : ¬(!lexeme.capitals.isRecognized) = true := recognized
      have noCopy : ¬lexeme.capitals.isWord "COPY" = true := by
        rw [Lexeme.keepsAnswers_capitals.isWord]
        exact other
      rw [List.map_cons, walk, walk, if_neg recognized, if_neg stillRecognized, if_neg other,
        if_neg noCopy, past_capitals]
      exact (findingsAt_capitals setting progress here rest).append (ih later)

theorem findingsOf_upper (setting : Setting) (text : List Char) :
    SameFindings (findingsOf setting (upper text)) (findingsOf setting text) := by
  have walked : SameFindings
      (walk setting Progress.start.capitals ((Lexeme.scan text).map Lexeme.capitals))
      (walk setting .start (Lexeme.scan text)) :=
    walk_capitals setting fun lexeme member => Lexeme.digital_of_mem_scan member
  unfold findingsOf
  rw [Lexeme.scan_upper]
  exact walked

end Parse

end CobolAnalysis
