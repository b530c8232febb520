/-
Written COPY statements are read back.

A statement is the word COPY, a name, perhaps a library, perhaps replacements, and a period. Laid
out over the lines of a text, one statement after the other, the statements are parsed to their
references, in order, and to nothing else; what words the replacements have makes no difference.
-/

import CobolAnalysis.Proofs.Parse.LetterCase
import CobolAnalysis.Proofs.Parse.Places
import CobolAnalysis.Proofs.Printed.Layout

namespace CobolAnalysis.Printed

open Lexeme (isBlank_of_isNameCharacter isQuote_of_isNameCharacter isBlank_of_isQuote
  isNameCharacter_of_isNameStart)
open Parse (Finding ParsedDocument Progress Reference Setting)
open Source (Format)
open Text (upper)

namespace Token

def IsKeyword (token : Token) (keyword : String) : Prop :=
  ∃ text, token = .word text ∧ Text.sameLetters text keyword.toList = true

/-- Words name copybooks, and so do literals without blanks or quotes inside. -/
def Names : Token → Prop
  | .word _ => True
  | .literal _ inside => inside ≠ [] ∧
      ∀ character ∈ inside, Text.isBlank character = false ∧ Source.isQuote character = false
  | _ => False

def name : Token → List Char
  | .literal _ inside => inside
  | other => other.text

end Token

/-- A COPY statement with the place of each token. -/
structure Statement where
  copy : Placed
  name : Placed
  /-- OF or IN, and the library. -/
  library : Option (Placed × Placed)
  /-- REPLACING, and what comes after it. -/
  replacing : Option (Placed × List Placed)
  period : Placed

namespace Statement

def libraryTokens (statement : Statement) : List Placed :=
  match statement.library with
  | none => []
  | some (preposition, library) => [preposition, library]

def endingTokens (statement : Statement) : List Placed :=
  match statement.replacing with
  | none => [statement.period]
  | some (word, replacements) => word :: (replacements ++ [statement.period])

def tokens (statement : Statement) : List Placed :=
  statement.copy :: statement.name :: (statement.libraryTokens ++ statement.endingTokens)

structure WellFormed (statement : Statement) : Prop where
  copy : statement.copy.token.IsKeyword "COPY"
  name : statement.name.token.Names
  library : ∀ preposition library, statement.library = some (preposition, library) →
    (preposition.token.IsKeyword "OF" ∨ preposition.token.IsKeyword "IN") ∧
      ∃ text, library.token = .word text
  replacing : ∀ word replacements, statement.replacing = some (word, replacements) →
    word.token.IsKeyword "REPLACING" ∧ ∀ placed ∈ replacements, placed.token ≠ .period
  period : statement.period.token = .period

def reference (statement : Statement) (uri : String) : Reference :=
  ⟨⟨upper statement.name.token.name⟩, uri, .onLine statement.name.line statement.name.column
    statement.name.token.text.length⟩

end Statement

/-! ### Lexemes that are tokens -/

theorem Token.kind_eq_period {token : Token} (isPeriod : token.kind = .period) :
    token = .period := by
  cases token with
  | period => rfl
  | word text =>
      change (if text.all Char.isDigit then LexemeKind.integer else .word) = .period at isPeriod
      split at isPeriod
      · cases isPeriod
      · cases isPeriod
  | literal quote inside => cases isPeriod
  | operator text => cases isPeriod
  | leftParenthesis => cases isPeriod
  | rightParenthesis => cases isPeriod

theorem Token.kind_of_names {token : Token} (names : token.Names) :
    token.kind = .word ∨ token.kind = .integer ∨ token.kind = .literal := by
  cases token with
  | word text =>
      change (if text.all Char.isDigit then LexemeKind.integer else .word) = _ ∨
        (if text.all Char.isDigit then LexemeKind.integer else .word) = _ ∨ _
      split
      · exact Or.inr (Or.inl rfl)
      · exact Or.inl rfl
  | literal quote inside => exact Or.inr (Or.inr rfl)
  | operator text => exact names.elim
  | leftParenthesis => exact names.elim
  | rightParenthesis => exact names.elim
  | period => exact names.elim

namespace Placed

variable {lexeme : Lexeme} {placed : Placed}

theorem Is.isSeparator (is : Is lexeme placed) (isPeriod : placed.token = .period) :
    lexeme.isSeparator = true := by
  unfold Lexeme.isSeparator
  rw [is.kind, isPeriod, is.ends isPeriod]
  rfl

theorem Is.not_isSeparator (is : Is lexeme placed) (other : placed.token ≠ .period) :
    lexeme.isSeparator = false := by
  apply Bool.eq_false_iff.mpr
  intro ends
  have isPeriod := Lexeme.kind_of_isSeparator ends
  rw [is.kind] at isPeriod
  exact other (Token.kind_eq_period isPeriod)

theorem Is.isWord (is : Is lexeme placed) {keyword : String}
    (isKeyword : placed.token.IsKeyword keyword)
    (letters : (upper keyword.toList).all Char.isDigit = false) :
    lexeme.isWord keyword = true := by
  obtain ⟨text, isWord, same⟩ := isKeyword
  have noInteger : text.all Char.isDigit = false := by
    apply Bool.eq_false_iff.mpr
    intro digits
    rw [← beq_iff_eq.mp same, Lexeme.upper_of_digits digits, digits] at letters
    cases letters
  have kind : lexeme.kind = .word := by
    rw [is.kind, isWord]
    exact if_neg (Bool.eq_false_iff.mp noInteger)
  unfold Lexeme.isWord
  rw [kind, is.text, isWord]
  exact same

end Placed

/-! ### The name -/

theorem nameQuote_eq : LogicalName.isQuote = Source.isQuote :=
  funext fun _ => Bool.or_comm _ _

theorem dropQuotes_append {first : List Char} (present : first ≠ [])
    (noQuote : ∀ character ∈ first, Source.isQuote character = false) (others : List Char) :
    (first ++ others).dropWhile Source.isQuote = first ++ others := by
  obtain ⟨head, tail, rfl⟩ := List.exists_cons_of_ne_nil present
  exact List.dropWhile_cons_of_neg (Bool.eq_false_iff.mp (noQuote head List.mem_cons_self))

section Quotes

variable {before text after : List Char}

theorem stripQuotes_quoted (opening : ∀ character ∈ before, Source.isQuote character = true)
    (closing : ∀ character ∈ after, Source.isQuote character = true) (present : text ≠ [])
    (noQuote : ∀ character ∈ text, Source.isQuote character = false) :
    LogicalName.stripQuotes (before ++ (text ++ after)) = text := by
  have reversed := dropQuotes_append (fun none => present (List.reverse_eq_nil_iff.mp none))
    (fun character member => noQuote character (List.mem_reverse.mp member)) []
  rw [List.append_nil] at reversed
  unfold LogicalName.stripQuotes
  rw [nameQuote_eq, List.dropWhile_append_of_pos opening, dropQuotes_append present noQuote,
    List.reverse_append, List.dropWhile_append_of_pos, reversed, List.reverse_reverse]
  exact fun character member => closing character (List.mem_reverse.mp member)

theorem parse_quoted (opening : ∀ character ∈ before, Source.isQuote character = true)
    (closing : ∀ character ∈ after, Source.isQuote character = true) (present : text ≠ [])
    (plain : ∀ character ∈ text,
      Text.isBlank character = false ∧ Source.isQuote character = false) :
    LogicalName.parse (before ++ (text ++ after)) = .ok ⟨upper text⟩ := by
  have visible : ∀ character ∈ before ++ (text ++ after), Text.isBlank character = false :=
    List.forall_mem_append.mpr ⟨fun character member => isBlank_of_isQuote (opening _ member),
      List.forall_mem_append.mpr ⟨fun character member => (plain character member).1,
        fun character member => isBlank_of_isQuote (closing _ member)⟩⟩
  have stripped := stripQuotes_quoted opening closing present
    fun character member => (plain character member).2
  have bare : LogicalName.bare (before ++ (text ++ after)) = text := by
    unfold LogicalName.bare
    rw [Text.trim_of_visible visible, stripped,
      Text.trim_of_visible fun character member => (plain character member).1]
  have noBlank : text.any Text.isBlank = false :=
    List.any_eq_false.mpr fun character member => Bool.eq_false_iff.mp (plain character member).1
  unfold LogicalName.parse
  simp only [bare, noBlank, List.isEmpty_eq_false_iff.mpr present, Bool.false_eq_true, if_false]

end Quotes

theorem Token.parse_text {token : Token} (wellFormed : token.WellFormed) (names : token.Names) :
    LogicalName.parse token.text = .ok ⟨upper token.name⟩ := by
  cases wellFormed with
  | @word first rest starts goesOn =>
      have plain : ∀ character ∈ first :: rest,
          Text.isBlank character = false ∧ Source.isQuote character = false := by
        have belongs : ∀ character ∈ first :: rest, Lexeme.isNameCharacter character = true :=
          List.forall_mem_cons.mpr
            ⟨isNameCharacter_of_isNameStart starts, List.all_eq_true.mp goesOn⟩
        exact fun character member => ⟨isBlank_of_isNameCharacter (belongs character member),
          isQuote_of_isNameCharacter (belongs character member)⟩
      have parsed := parse_quoted (List.forall_mem_nil _) (List.forall_mem_nil _)
        (List.cons_ne_nil first rest) plain
      rw [List.nil_append, List.append_nil] at parsed
      exact parsed
  | @literal quote inside quotes closed =>
      change LogicalName.parse ([quote] ++ (inside ++ [quote])) = .ok ⟨upper inside⟩
      have around : ∀ character ∈ [quote], Source.isQuote character = true :=
        List.forall_mem_singleton.mpr quotes
      exact parse_quoted around around names.1 names.2
  | operator => exact names.elim
  | leftParenthesis => exact names.elim
  | rightParenthesis => exact names.elim
  | period => exact names.elim

/-! ### One statement -/

theorem pastSeparator_eq {before : List Placed} (others : ∀ placed ∈ before, placed.token ≠ .period)
    {period : Placed} (isPeriod : period.token = .period) {lexemes : List Lexeme}
    (are : List.Forall₂ Placed.Is lexemes (before ++ [period])) (rest : List Lexeme) :
    Parse.CopyStatement.pastSeparator (lexemes ++ rest) = lexemes.length := by
  induction before generalizing lexemes with
  | nil =>
      obtain ⟨lexeme, more, is, none, rfl⟩ := List.forall₂_cons_right_iff.mp are
      cases none
      exact if_pos (is.isSeparator isPeriod)
  | cons placed later ih =>
      obtain ⟨here, later⟩ := List.forall_mem_cons.mp others
      obtain ⟨lexeme, more, is, follow, rfl⟩ := List.forall₂_cons_right_iff.mp are
      rw [List.cons_append, Parse.CopyStatement.pastSeparator,
        if_neg (Bool.eq_false_iff.mp (is.not_isSeparator here)), ih later follow]
      rfl

namespace Statement

variable {statement : Statement}

theorem WellFormed.ending (wellFormed : statement.WellFormed) {lexemes : List Lexeme}
    (are : List.Forall₂ Placed.Is lexemes statement.endingTokens) (rest : List Lexeme) :
    Parse.CopyStatement.endingExtent (lexemes ++ rest) = lexemes.length ∧
      Parse.CopyStatement.libraryExtent (lexemes ++ rest) = 0 := by
  unfold endingTokens at are
  cases replacing : statement.replacing with
  | none =>
      rw [replacing] at are
      obtain ⟨lexeme, more, is, none, rfl⟩ := List.forall₂_cons_right_iff.mp are
      cases none
      have ends := is.isSeparator wellFormed.period
      refine ⟨if_pos ends, if_neg ?_⟩
      rw [Lexeme.isWord_of_isSeparator ends, Lexeme.isWord_of_isSeparator ends]
      decide
  | some pair =>
      obtain ⟨word, replacements⟩ := pair
      rw [replacing] at are
      obtain ⟨isReplacing, others⟩ := wellFormed.replacing word replacements replacing
      have noPeriod : word.token ≠ .period := by
        obtain ⟨text, isWord, _⟩ := isReplacing
        rw [isWord]
        exact Token.noConfusion
      obtain ⟨lexeme, more, is, follow, rfl⟩ := List.forall₂_cons_right_iff.mp are
      have reads := is.isWord isReplacing (by decide)
      have before : ∀ placed ∈ word :: replacements, placed.token ≠ .period :=
        List.forall_mem_cons.mpr ⟨noPeriod, others⟩
      have past := pastSeparator_eq before wellFormed.period are rest
      constructor
      · change (if lexeme.isSeparator then _ else if lexeme.isWord "REPLACING" then _ else _) = _
        rw [if_neg (Bool.eq_false_iff.mp (is.not_isSeparator noPeriod)), if_pos reads]
        exact past
      · refine if_neg ?_
        rw [Lexeme.isWord_of_isWord reads (by decide), Lexeme.isWord_of_isWord reads (by decide)]
        decide

theorem WellFormed.library_ending (wellFormed : statement.WellFormed) {lexemes : List Lexeme}
    (are : List.Forall₂ Placed.Is lexemes (statement.libraryTokens ++ statement.endingTokens))
    (rest : List Lexeme) :
    Parse.CopyStatement.libraryExtent (lexemes ++ rest) +
      Parse.CopyStatement.endingExtent
        ((lexemes ++ rest).drop (Parse.CopyStatement.libraryExtent (lexemes ++ rest))) =
          lexemes.length := by
  unfold libraryTokens at are
  cases library : statement.library with
  | none =>
      rw [library] at are
      obtain ⟨ending, noLibrary⟩ := wellFormed.ending are rest
      rw [noLibrary, Nat.zero_add, List.drop_zero, ending]
  | some pair =>
      obtain ⟨preposition, name⟩ := pair
      rw [library] at are
      obtain ⟨isPreposition, _⟩ := wellFormed.library preposition name library
      obtain ⟨first, others, isFirst, follow, rfl⟩ := List.forall₂_cons_right_iff.mp are
      obtain ⟨second, more, _, ending, rfl⟩ := List.forall₂_cons_right_iff.mp follow
      have either : (first.isWord "OF" || first.isWord "IN") = true := by
        rw [Bool.or_eq_true]
        exact isPreposition.imp (isFirst.isWord · (by decide)) (isFirst.isWord · (by decide))
      have extent : Parse.CopyStatement.libraryExtent (first :: second :: more ++ rest) = 2 :=
        if_pos either
      rw [extent]
      change 2 + Parse.CopyStatement.endingExtent (more ++ rest) = more.length + 1 + 1
      rw [(wellFormed.ending ending rest).1, Nat.add_comm]

/-- A statement is walked over with its reference as the only finding. -/
theorem WellFormed.walk (wellFormed : statement.WellFormed)
    (nameWellFormed : statement.name.token.WellFormed) {lexemes : List Lexeme}
    (are : List.Forall₂ Placed.Is lexemes statement.tokens) (setting : Setting)
    (progress : Progress) (rest : List Lexeme) :
    ∃ after, Parse.walk setting progress (lexemes ++ rest) =
      .copy (statement.reference setting.uri) :: Parse.walk setting after rest := by
  obtain ⟨copy, others, isCopy, follow, rfl⟩ := List.forall₂_cons_right_iff.mp are
  obtain ⟨name, more, isName, ending, rfl⟩ := List.forall₂_cons_right_iff.mp follow
  have word := isCopy.isWord wellFormed.copy (by decide)
  have names : (name.isName || name.kind == .literal) = true := by
    unfold Lexeme.isName
    rw [isName.kind]
    rcases Token.kind_of_names wellFormed.name with kind | kind | kind <;> rw [kind] <;> rfl
  have operand := Parse.CopyStatement.operand?_cons names (more ++ rest)
  have extent : Parse.CopyStatement.extent (name :: (more ++ rest)) = more.length + 1 := by
    have others := wellFormed.library_ending ending rest
    unfold Parse.CopyStatement.extent
    rw [operand]
    change 1 + Parse.CopyStatement.libraryExtent (more ++ rest) +
      Parse.CopyStatement.endingExtent ((name :: (more ++ rest)).drop
        (1 + Parse.CopyStatement.libraryExtent (more ++ rest))) = _
    rw [Nat.add_comm 1, List.drop_succ_cons]
    omega
  have finding : Parse.CopyStatement.finding setting.uri copy (name :: (more ++ rest)) =
      .copy (statement.reference setting.uri) := by
    unfold Parse.CopyStatement.finding
    rw [operand]
    simp only [isName.text, Token.parse_text nameWellFormed wellFormed.name]
    unfold Lexeme.location
    rw [isName.line, isName.column, isName.text]
    rfl
  have onward : (name :: (more ++ rest)).drop (more.length + 1) = rest := List.drop_left
  refine ⟨progress.pastCopy copy ((name :: (more ++ rest)).take (more.length + 1)), ?_⟩
  rw [List.cons_append, List.cons_append, Parse.walk_copy setting progress word, finding, extent,
    onward]

end Statement

/-! ### All statements -/

theorem LaidOut.wellFormed {format : Format} {number : Nat} {raws : List (List Char)}
    {placed : List Placed} (laidOut : LaidOut format number raws placed) :
    ∀ each ∈ placed, each.token.WellFormed := by
  have printed : ∀ {line column text placed}, Prints line column text placed →
      ∀ each ∈ placed, each.token.WellFormed := by
    intro line column text placed prints
    induction prints with
    | gap => exact List.forall_mem_nil _
    | token _ wellFormed _ _ ih => exact List.forall_mem_cons.mpr ⟨wellFormed, ih⟩
  induction laidOut with
  | none => exact List.forall_mem_nil _
  | line first rest ih =>
      refine List.forall_mem_append.mpr ⟨?_, ih⟩
      cases first with
      | blank => exact List.forall_mem_nil _
      | comment => exact List.forall_mem_nil _
      | code _ prints _ => exact printed prints

theorem walk_statements {statements : List Statement}
    (wellFormed : ∀ statement ∈ statements, statement.WellFormed)
    (tokens : ∀ placed ∈ statements.flatMap Statement.tokens, placed.token.WellFormed)
    {lexemes : List Lexeme}
    (are : List.Forall₂ Placed.Is lexemes (statements.flatMap Statement.tokens))
    (setting : Setting) (progress : Progress) :
    Parse.walk setting progress lexemes =
      statements.map fun statement => .copy (statement.reference setting.uri) := by
  induction statements generalizing lexemes progress with
  | nil =>
      cases are
      rw [Parse.walk]
      rfl
  | cons statement rest ih =>
      obtain ⟨here, later⟩ := List.forall_mem_cons.mp wellFormed
      rw [List.flatMap_cons] at are tokens
      obtain ⟨first, others⟩ := List.forall_mem_append.mp tokens
      have name : statement.name.token.WellFormed :=
        first _ (List.mem_cons_of_mem _ List.mem_cons_self)
      obtain ⟨after, walks⟩ := here.walk name (List.forall₂_take_append _ _ _ are) setting progress
        (lexemes.drop statement.tokens.length)
      rw [List.take_append_drop] at walks
      rw [walks, ih later others (List.forall₂_drop_append _ _ _ are)]
      rfl

/-- The document asks for the copybooks of the references, uses them there, and has nothing else to
say. -/
structure OnlyAsks (parsed : ParsedDocument) (references : List Reference) : Prop where
  asks : parsed.references = references
  unreported : parsed.context.diagnostics = []
  mentioned : ∀ key, parsed.context.Knows (.mentioned key) ↔
    ∃ reference ∈ references, key = ⟨.copybook, reference.name.text⟩
  undefined : ∀ key location, ¬parsed.context.Knows (.definedAt key location)
  used : ∀ key location, parsed.context.Knows (.usedAt key location) ↔
    ∃ reference ∈ references, key = ⟨.copybook, reference.name.text⟩ ∧
      location = reference.location

theorem onlyAsks_ofFindings {references : List Reference}
    (capitals : ∀ reference ∈ references, upper reference.name.text = reference.name.text) :
    OnlyAsks (.ofFindings (references.map Finding.copy)) references := by
  have known : ∀ fact,
      (ParsedDocument.ofFindings (references.map Finding.copy)).context.Knows fact ↔
        ∃ reference ∈ references, (Occurrences.none.use reference.location).Bears
          ⟨.copybook, reference.name.text⟩ fact := by
    intro fact
    rw [Parse.knows_ofFindings]
    simp only [List.mem_map, exists_exists_and_eq_and]
    refine exists_congr fun reference => and_congr_right fun member => ?_
    rw [← capitals reference member]
    rfl
  constructor
  · change (references.map Finding.copy).filterMap Finding.reference? = references
    rw [List.filterMap_map]
    exact List.filterMap_some
  · rw [Parse.diagnostics_ofFindings, List.filterMap_map]
    exact List.filterMap_eq_nil_iff.mpr fun _ _ => rfl
  · exact fun key => known (.mentioned key)
  · intro key location definedThere
    obtain ⟨_, _, _, none⟩ := (known _).mp definedThere
    exact List.not_mem_nil none
  · intro key location
    rw [known]
    refine exists_congr fun reference => and_congr_right fun _ => and_congr_right fun _ => ?_
    exact OrderedSet.mem_insert_empty _ _

/-- COPY statements that are laid out over the lines of a text, in free or in variable-length
format, are preprocessed and parsed to their references. -/
theorem written_copies_read_back (asCode : Bool) {format : Format} (notFixed : format ≠ .fixed)
    (options : Parse.Options) (uri : String) {text : List Char}
    (readable : ∀ raw ∈ Text.lines text, '\x00' ∉ raw) {statements : List Statement}
    (wellFormed : ∀ statement ∈ statements, statement.WellFormed)
    (laidOut : LaidOut format 0 (Text.lines text) (statements.flatMap Statement.tokens)) :
    ∃ written, Source.preprocess (.pipeline (Source.Stage.standard asCode)) uri format text =
        .ok (.clean written) ∧
      OnlyAsks (Parse.document uri written format options)
        (statements.map (Statement.reference · uri)) := by
  obtain ⟨written, preprocessed, are⟩ := laidOut.preprocess notFixed readable asCode uri
  have found : Parse.findingsOf ⟨uri, format, options⟩ written =
      (statements.map (Statement.reference · uri)).map Finding.copy := by
    unfold Parse.findingsOf
    rw [walk_statements wellFormed laidOut.wellFormed are, List.map_map]
    rfl
  refine ⟨written, preprocessed, ?_⟩
  unfold Parse.document
  rw [found]
  apply onlyAsks_ofFindings
  intro reference member
  obtain ⟨statement, _, rfl⟩ := List.mem_map.mp member
  exact Text.upper_upper _

/-! ### A statement on three lines -/

namespace Sample

def text : List Char := "000100 copy Custrec\n000200* note\n000300  REPLACING COPY.".toList

def statement : Statement where
  copy := ⟨.word ['c', 'o', 'p', 'y'], 0, 7⟩
  name := ⟨.word ['C', 'u', 's', 't', 'r', 'e', 'c'], 0, 12⟩
  library := none
  replacing := some (⟨.word ['R', 'E', 'P', 'L', 'A', 'C', 'I', 'N', 'G'], 2, 8⟩,
    [⟨.word ['C', 'O', 'P', 'Y'], 2, 18⟩])
  period := ⟨.period, 2, 22⟩

theorem wellFormed : statement.WellFormed where
  copy := ⟨_, rfl, by decide⟩
  name := trivial
  library := nofun
  replacing := fun _ _ same => by
    cases same
    exact ⟨⟨_, rfl, by decide⟩, by simp⟩
  period := rfl

theorem laidOut : LaidOut .variableLength 0 (Text.lines text) statement.tokens := by
  have lines : Text.lines text =
      [(['0', '0', '0', '1', '0', '0'] ++ [' ']) ++ (([] ++ (['c', 'o', 'p', 'y'] ++ ([' '] ++
          (['C', 'u', 's', 't', 'r', 'e', 'c'] ++ [])))) ++ []),
        "000200* note".toList,
        (['0', '0', '0', '3', '0', '0'] ++ [' ']) ++ (([' '] ++ (['R', 'E', 'P', 'L', 'A', 'C', 'I', 'N', 'G'] ++
          ([' '] ++ (['C', 'O', 'P', 'Y'] ++ ([] ++ (['.'] ++ [])))))) ++ [])] := by
    decide +kernel
  have first : Prints 0 7 ([] ++ (['c', 'o', 'p', 'y'] ++ ([' '] ++
      (['C', 'u', 's', 't', 'r', 'e', 'c'] ++ [])))) [statement.copy, statement.name] :=
    .token rfl (.word (by decide) (by decide)) (by decide)
      (.token rfl (.word (by decide) (by decide)) (by decide) (.gap rfl))
  have last : Prints 2 7 ([' '] ++ (['R', 'E', 'P', 'L', 'A', 'C', 'I', 'N', 'G'] ++
      ([' '] ++ (['C', 'O', 'P', 'Y'] ++ ([] ++ (['.'] ++ [])))))) statement.endingTokens :=
    .token rfl (.word (by decide) (by decide)) (by decide)
      (.token rfl (.word (by decide) (by decide)) (by decide)
        (.token rfl .period (by decide) (.gap rfl)))
  have margin : ∀ sequence : List Char, sequence.length = Source.indicatorColumn →
      IsMargin .variableLength (sequence ++ [' ']) :=
    fun sequence columns => ⟨sequence, columns, rfl⟩
  have marked : IsCommentLine .variableLength "000200* note".toList := .inl (by decide +kernel)
  rw [lines]
  refine .line (.code (margin ['0', '0', '0', '1', '0', '0'] rfl) first (.inl rfl)) ?_
  refine .line (.comment marked) ?_
  exact .line (.code (margin ['0', '0', '0', '3', '0', '0'] rfl) last (.inl rfl)) (.none 3)

end Sample

/-- The word COPY among the replacements is not taken for another statement. -/
theorem sample_written_copy_read_back :
    ∃ written, Source.preprocess (.pipeline (Source.Stage.standard false)) "root" .variableLength
        Sample.text = .ok (.clean written) ∧
      OnlyAsks (Parse.document "root" written .variableLength ⟨true, true⟩)
        [⟨⟨"CUSTREC".toList⟩, "root", .onLine 0 12 7⟩] := by
  have wellFormed : ∀ each ∈ [Sample.statement], each.WellFormed :=
    List.forall_mem_singleton.mpr Sample.wellFormed
  have laidOut : LaidOut .variableLength 0 (Text.lines Sample.text)
      ([Sample.statement].flatMap Statement.tokens) := Sample.laidOut
  have reference : [Sample.statement].map (Statement.reference · "root") =
      [⟨⟨"CUSTREC".toList⟩, "root", .onLine 0 12 7⟩] := by
    decide +kernel
  rw [← reference]
  exact written_copies_read_back false (by decide) ⟨true, true⟩ "root" (by decide +kernel)
    wellFormed laidOut

end CobolAnalysis.Printed
