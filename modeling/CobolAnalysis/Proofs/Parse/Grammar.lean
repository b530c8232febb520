/-
The sentence grammar, read off the lexemes of a text without COPY statements.

What a lexeme begins is said here without a walk: by what stands directly after it, by whether
the last recognized lexeme before it ended a sentence, and by the last DIVISION before it. The
walk keeps two flags for the latter, and at every lexeme they have the values said here. So the
definitions and the problems that it finds are those of the grammar, and no others.
-/

import CobolAnalysis.Proofs.Parse.Places
import Mathlib.Data.List.FinRange

namespace CobolAnalysis

namespace Parse

/-! ### The grammar -/

section Grammar

variable (lexemes : List Lexeme)

def WordAt (keyword : String) (index : Nat) : Prop :=
  (lexemes[index]?).any (Lexeme.isWord · keyword) = true

def SeparatorAt (index : Nat) : Prop := (lexemes[index]?).any Lexeme.isSeparator = true

/-- The last word DIVISION up to this place, the first lexeme apart, comes directly after the word
PROCEDURE. -/
def InProcedureDivision (index : Nat) : Prop :=
  ∃ place < index, WordAt lexemes "PROCEDURE" place ∧ WordAt lexemes "DIVISION" (place + 1) ∧
    ∀ later ≤ index, place + 1 < later → ¬WordAt lexemes "DIVISION" later

/-- A recognized lexeme, before which the last recognized one ends a sentence, if there is any. -/
structure StartsSentence (index : Nat) (first : Lexeme) : Prop where
  here : lexemes[index]? = some first
  recognized : first.isRecognized = true
  behind : Closed (lexemes.take index)

/-- An integer of at most 32 bits that is read as a level number. -/
structure LevelAt (index : Nat) (first : Lexeme) : Prop where
  start : StartsSentence lexemes index first
  integer : first.kind = .integer
  fits : Text.Decimal.value first.text ≤ 4294967295
  outside : ¬InProcedureDivision lexemes index

def IsLevel (level : Nat) : Prop := 1 ≤ level ∧ level ≤ 49 ∨ level = 66 ∨ level = 77 ∨ level = 88

/-- A name in area A that begins a sentence. -/
structure NameAt (format : Source.Format) (index : Nat) (first : Lexeme) : Prop where
  start : StartsSentence lexemes index first
  unlevelled : ¬LevelAt lexemes index first
  name : first.kind = .word ∨ first.kind = .integer
  area : format = .free ∨ first.column ≤ 10

/-- What the sentence that starts with `first` defines, and the lexeme that names it. -/
inductive Defines (format : Source.Format) (index : Nat) (first : Lexeme) :
    SymbolKind → Lexeme → Prop where
  | dataItem {name : Lexeme} (level : LevelAt lexemes index first)
      (valid : IsLevel (Text.Decimal.value first.text)) (next : lexemes[index + 1]? = some name)
      (word : name.kind = .word) (ordinary : name.isAnyOf dataClauses = false) :
      Defines format index first .dataItem name
  | procedureSection (name : NameAt lexemes format index first)
      (keyword : WordAt lexemes "SECTION" (index + 1)) (ends : SeparatorAt lexemes (index + 2))
      (ordinary : first.isAnyOf divisionSections = false) :
      Defines format index first .procedureSection first
  | paragraph (name : NameAt lexemes format index first)
      (ends : SeparatorAt lexemes (index + 1))
      (ordinary : first.isAnyOf sentenceKeywords = false)
      (known : first.kind = .word ∨ InProcedureDivision lexemes index) :
      Defines format index first .paragraph first

instance (keyword : String) (index : Nat) : Decidable (WordAt lexemes keyword index) :=
  inferInstanceAs (Decidable (_ = true))

instance (index : Nat) : Decidable (InProcedureDivision lexemes index) :=
  inferInstanceAs (Decidable (∃ place < index, WordAt lexemes "PROCEDURE" place ∧
    WordAt lexemes "DIVISION" (place + 1) ∧
      ∀ later ≤ index, place + 1 < later → ¬WordAt lexemes "DIVISION" later))

instance (index : Nat) (first : Lexeme) : Decidable (StartsSentence lexemes index first) :=
  decidable_of_iff (lexemes[index]? = some first ∧ first.isRecognized = true ∧
      Closed (lexemes.take index))
    ⟨fun ⟨here, recognized, behind⟩ => ⟨here, recognized, behind⟩,
      fun start => ⟨start.here, start.recognized, start.behind⟩⟩

instance (index : Nat) (first : Lexeme) : Decidable (LevelAt lexemes index first) :=
  decidable_of_iff (StartsSentence lexemes index first ∧ first.kind = .integer ∧
      Text.Decimal.value first.text ≤ 4294967295 ∧ ¬InProcedureDivision lexemes index)
    ⟨fun ⟨start, integer, fits, outside⟩ => ⟨start, integer, fits, outside⟩,
      fun level => ⟨level.start, level.integer, level.fits, level.outside⟩⟩

instance (level : Nat) : Decidable (IsLevel level) :=
  inferInstanceAs (Decidable (1 ≤ level ∧ level ≤ 49 ∨ level = 66 ∨ level = 77 ∨ level = 88))

def reportsAt (uri : String) (strictLevels : Bool) (index : Fin lexemes.length) :
    List Diagnostic :=
  let lexeme := lexemes[index]
  if lexeme.isRecognized = false then
    [.warning (lexeme.location uri) Diagnostic.Code.unexpectedCharacter
      ("Unexpected character '" ++ String.ofList lexeme.text ++ "'")]
  else if LevelAt lexemes index lexeme ∧ ¬IsLevel (Text.Decimal.value lexeme.text) ∧
      strictLevels = true then
    [.warning (lexeme.location uri) Diagnostic.Code.invalidLevel
      ("Invalid level number " ++ toString (Text.Decimal.value lexeme.text))]
  else []

end Grammar

/-! ### Words at a place -/

variable {lexemes : List Lexeme}

theorem WordAt.within {keyword : String} {index : Nat} (word : WordAt lexemes keyword index) :
    index < lexemes.length := by
  obtain ⟨lexeme, here, _⟩ := (Option.any_eq_true _ _).mp word
  exact (List.getElem?_eq_some_iff.mp here).1

theorem wordAt_drop (count : Nat) (keyword : String) (place : Nat) :
    WordAt (lexemes.drop count) keyword place ↔ WordAt lexemes keyword (count + place) := by
  unfold WordAt
  rw [List.getElem?_drop]

theorem wordAt_of_getElem? {index : Nat} {word : Lexeme} (here : lexemes[index]? = some word)
    (keyword : String) :
    WordAt lexemes keyword index ↔ word.isWord keyword = true := by
  unfold WordAt
  rw [here]
  rfl

/-! ### The flags of the walk -/

theorem inProcedureDivision_succ (index : Nat) :
    InProcedureDivision lexemes (index + 1) ↔
      if WordAt lexemes "DIVISION" (index + 1) then WordAt lexemes "PROCEDURE" index
      else InProcedureDivision lexemes index := by
  split
  next division =>
    constructor
    · rintro ⟨place, before, procedure, _, none⟩
      have last : place = index := by
        by_contra other
        exact none (index + 1) (Nat.le_refl _) (by omega) division
      rwa [last] at procedure
    · intro procedure
      exact ⟨index, Nat.lt_succ_self index, procedure, division, fun later within beyond =>
        absurd within (Nat.not_le_of_gt beyond)⟩
  next other =>
    constructor
    · rintro ⟨place, before, procedure, division, none⟩
      have earlier : place ≠ index := fun same => other (same ▸ division)
      exact ⟨place, by omega, procedure, division, fun later within =>
        none later (Nat.le_succ_of_le within)⟩
    · rintro ⟨place, before, procedure, division, none⟩
      refine ⟨place, Nat.lt_succ_of_lt before, procedure, division, fun later within beyond => ?_⟩
      rcases Nat.lt_or_eq_of_le within with earlier | rfl
      · exact none later (Nat.le_of_lt_succ earlier) beyond
      · exact other

theorem closed_concat (earlier : List Lexeme) (last : Lexeme) :
    Closed (earlier ++ [last]) ↔
      if last.isRecognized then last.isSeparator = true else Closed earlier := by
  unfold Closed
  rw [List.filter_append]
  split
  next recognized =>
    rw [List.filter_cons_of_pos recognized, List.filter_nil, List.getLast?_concat]
    simp only [Option.mem_some_iff, forall_eq']
  next unknown =>
    rw [List.filter_cons_of_neg unknown, List.filter_nil, List.append_nil]

namespace Progress

theorem through_concat (progress : Progress) (earlier : List Lexeme) (last : Lexeme) :
    progress.through (earlier ++ [last]) = (progress.through earlier).step last :=
  List.foldl_append

theorem atSentenceStart_step (progress : Progress) (lexeme : Lexeme) :
    (progress.step lexeme).atSentenceStart =
      if lexeme.isRecognized then lexeme.isSeparator else progress.atSentenceStart := by
  unfold step
  split <;> rfl

theorem inProcedureAt_step (progress : Progress) (lexeme next : Lexeme) :
    (progress.step lexeme).inProcedureAt next =
      if next.isWord "DIVISION" then lexeme.isWord "PROCEDURE"
      else progress.inProcedureAt lexeme := by
  unfold step
  split
  next => rfl
  next unknown =>
    have other := Lexeme.isWord_of_unrecognized (Bool.eq_false_iff.mpr unknown) "DIVISION"
    rw [inProcedureAt_of_isWord other]
    rfl

theorem atSentenceStart_iff (before : List Lexeme) :
    (start.through before).atSentenceStart = true ↔ Closed before := by
  induction before using List.reverseRecOn with
  | nil => exact iff_of_true rfl (by decide)
  | append_singleton earlier last ih =>
      rw [through_concat, atSentenceStart_step, closed_concat, ← ih]
      split <;> rfl

theorem inProcedureAt_iff {index : Nat} {lexeme : Lexeme} (here : lexemes[index]? = some lexeme) :
    (start.through (lexemes.take index)).inProcedureAt lexeme = true ↔
      InProcedureDivision lexemes index := by
  induction index generalizing lexeme with
  | zero =>
      refine iff_of_false Bool.false_ne_true ?_
      rintro ⟨place, before, _⟩
      exact absurd before (Nat.not_lt_zero place)
  | succ index ih =>
      obtain ⟨within, _⟩ := List.getElem?_eq_some_iff.mp here
      have previous : lexemes[index]? = some lexemes[index] :=
        List.getElem?_eq_getElem (Nat.lt_of_succ_lt within)
      have division : WordAt lexemes "DIVISION" (index + 1) ↔ lexeme.isWord "DIVISION" = true := by
        unfold WordAt
        rw [here]
        rfl
      have procedure : WordAt lexemes "PROCEDURE" index ↔
          lexemes[index].isWord "PROCEDURE" = true := by
        unfold WordAt
        rw [previous]
        rfl
      rw [List.take_succ_eq_append_getElem (Nat.lt_of_succ_lt within), through_concat,
        inProcedureAt_step, inProcedureDivision_succ, ← ih previous]
      simp only [division, procedure]
      split <;> rfl

end Progress

/-! ### One sentence -/

namespace Sentence

theorem level?_eq (inProcedure : Bool) (first : Lexeme) :
    level? inProcedure first =
      if inProcedure = false ∧ first.kind = .integer ∧ Text.Decimal.value first.text ≤ 4294967295
      then some (Text.Decimal.value first.text) else none := by
  unfold level? largestLevel
  simp only [Bool.and_eq_true, Bool.not_eq_true', beq_iff_eq, decide_eq_true_eq, and_assoc]

theorem isValidLevel_iff (level : Nat) : isValidLevel level = true ↔ IsLevel level := by
  unfold isValidLevel IsLevel
  simp only [Bool.or_eq_true, Bool.and_eq_true, decide_eq_true_eq, beq_iff_eq, or_assoc]

theorem mem_dataEntry_iff {setting : Setting} {first : Lexeme} {level : Nat} {rest : List Lexeme}
    {kind : SymbolKind} {written : List Char} {location : Location} :
    .definition kind written location ∈ dataEntry setting first level rest ↔
      IsLevel level ∧ ∃ name, rest[0]? = some name ∧ name.kind = .word ∧
        name.isAnyOf dataClauses = false ∧
          Finding.definition kind written location =
            .definition .dataItem name.text (name.location setting.uri) := by
  unfold dataEntry
  simp only [isValidLevel_iff, List.head?_eq_getElem?]
  by_cases valid : IsLevel level
  · rw [if_pos valid]
    cases rest[0]? with
    | none => simp
    | some name =>
        simp only [valid, true_and, Option.some.injEq, exists_eq_left']
        split
        next shape =>
          simp only [Bool.and_eq_true, beq_iff_eq, Bool.not_eq_true'] at shape
          simp only [shape.1, shape.2, true_and, List.mem_singleton]
        next shape =>
          simp only [Bool.and_eq_true, beq_iff_eq, Bool.not_eq_true', not_and] at shape
          refine iff_of_false List.not_mem_nil ?_
          rintro ⟨word, ordinary, _⟩
          exact shape word ordinary
  · rw [if_neg valid]
    refine iff_of_false ?_ fun both => valid both.1
    split <;> simp

theorem beginsParagraph_of_beginsSection {first : Lexeme} {rest : List Lexeme}
    (begins : beginsSection first rest = true) (inProcedure : Bool) :
    beginsParagraph inProcedure first rest = false := by
  unfold beginsSection at begins
  simp only [Bool.and_eq_true, and_assoc] at begins
  obtain ⟨next, there, word⟩ := (Option.any_eq_true _ _).mp begins.1
  have goesOn : next.isSeparator = false := by
    by_contra ends
    rw [Lexeme.isWord_of_isSeparator (Bool.not_eq_false _ ▸ ends)] at word
    cases word
  unfold beginsParagraph
  rw [there, Option.any_some, goesOn]
  rfl

theorem mem_procedureName_iff {setting : Setting} {inProcedure : Bool} {first : Lexeme}
    {rest : List Lexeme} {finding : Finding} :
    finding ∈ procedureName setting inProcedure first rest ↔
      (first.isName = true ∧ inAreaA setting.format first = true) ∧
        (beginsSection first rest = true ∧ finding =
            .definition .procedureSection first.text (first.location setting.uri) ∨
          beginsParagraph inProcedure first rest = true ∧ finding =
            .definition .paragraph first.text (first.location setting.uri)) := by
  unfold procedureName
  rw [← Bool.and_eq_true]
  by_cases named : (first.isName && inAreaA setting.format first) = true
  · rw [if_pos named, and_iff_right named]
    by_cases begins : beginsSection first rest = true
    · simp only [begins, if_true, true_and, beginsParagraph_of_beginsSection begins,
        Bool.false_eq_true, false_and, or_false, List.mem_singleton]
    · rw [if_neg begins, or_iff_right fun both => begins both.1]
      split
      next paragraph => rw [List.mem_singleton, and_iff_right paragraph]
      next other => exact iff_of_false List.not_mem_nil fun both => other both.1
  · rw [if_neg named, iff_false_left List.not_mem_nil]
    exact fun both => named both.1

section Starts

variable {index : Nat} {first : Lexeme} (start : StartsSentence lexemes index first)
  {inProcedure : Bool} (procedure : inProcedure = true ↔ InProcedureDivision lexemes index)

include start procedure

theorem level?_at : level? inProcedure first =
    if LevelAt lexemes index first then some (Text.Decimal.value first.text) else none := by
  have same : inProcedure = false ∧ first.kind = .integer ∧
      Text.Decimal.value first.text ≤ 4294967295 ↔ LevelAt lexemes index first := by
    rw [← Bool.not_eq_true, procedure]
    exact ⟨fun ⟨outside, integer, fits⟩ => ⟨start, integer, fits, outside⟩,
      fun level => ⟨level.outside, level.integer, level.fits⟩⟩
  rw [level?_eq]
  simp only [same]

theorem mem_findings_iff {setting : Setting} {kind : SymbolKind} {written : List Char}
    {location : Location} :
    .definition kind written location ∈
        findings setting inProcedure first (lexemes.drop (index + 1)) ↔
      ∃ name, Defines lexemes setting.format index first kind name ∧ written = name.text ∧
        location = name.location setting.uri := by
  unfold findings
  rw [level?_at start procedure]
  by_cases level : LevelAt lexemes index first
  · simp only [if_pos level]
    rw [mem_dataEntry_iff, List.getElem?_drop]
    constructor
    · rintro ⟨valid, name, next, word, ordinary, same⟩
      cases same
      exact ⟨name, .dataItem level valid next word ordinary, rfl, rfl⟩
    · rintro ⟨name, defines, rfl, rfl⟩
      cases defines with
      | dataItem _ valid next word ordinary => exact ⟨valid, name, next, word, ordinary, rfl⟩
      | procedureSection named => exact absurd level named.unlevelled
      | paragraph named => exact absurd level named.unlevelled
  · have named : first.isName = true ∧ inAreaA setting.format first = true ↔
        NameAt lexemes setting.format index first := by
      unfold Lexeme.isName inAreaA areaAEnd
      simp only [Bool.or_eq_true, beq_iff_eq, decide_eq_true_eq]
      exact ⟨fun ⟨name, area⟩ => ⟨start, level, name, area⟩, fun name => ⟨name.name, name.area⟩⟩
    have sections : beginsSection first (lexemes.drop (index + 1)) = true ↔
        WordAt lexemes "SECTION" (index + 1) ∧ SeparatorAt lexemes (index + 2) ∧
          first.isAnyOf divisionSections = false := by
      unfold beginsSection WordAt SeparatorAt
      simp only [List.getElem?_drop, Bool.and_eq_true, Bool.not_eq_true', and_assoc]
    have paragraphs : beginsParagraph inProcedure first (lexemes.drop (index + 1)) = true ↔
        SeparatorAt lexemes (index + 1) ∧ first.isAnyOf sentenceKeywords = false ∧
          (first.kind = .word ∨ InProcedureDivision lexemes index) := by
      unfold beginsParagraph SeparatorAt
      simp only [List.getElem?_drop, Bool.and_eq_true, Bool.not_eq_true', and_assoc,
        Bool.or_eq_true, beq_iff_eq, procedure, or_comm]
    simp only [if_neg level]
    rw [mem_procedureName_iff, named, sections, paragraphs]
    constructor
    · rintro ⟨name, ⟨⟨keyword, ends, ordinary⟩, same⟩ | ⟨⟨ends, ordinary, known⟩, same⟩⟩
      · cases same
        exact ⟨first, .procedureSection name keyword ends ordinary, rfl, rfl⟩
      · cases same
        exact ⟨first, .paragraph name ends ordinary known, rfl, rfl⟩
    · rintro ⟨name, defines, rfl, rfl⟩
      cases defines with
      | dataItem own => exact absurd own level
      | procedureSection name keyword ends ordinary =>
          exact ⟨name, Or.inl ⟨⟨keyword, ends, ordinary⟩, rfl⟩⟩
      | paragraph name ends ordinary known =>
          exact ⟨name, Or.inr ⟨⟨ends, ordinary, known⟩, rfl⟩⟩

end Starts

end Sentence

theorem Defines.start {format : Source.Format} {index : Nat} {first name : Lexeme}
    {kind : SymbolKind} (defines : Defines lexemes format index first kind name) :
    StartsSentence lexemes index first := by
  cases defines with
  | dataItem level => exact level.start
  | procedureSection name => exact name.start
  | paragraph name => exact name.start

/-! ### One lexeme -/

/-- Without COPY statements, the walk goes from one lexeme to the next. -/
theorem walk_eq_flatMap (free : CopyFree lexemes) (setting : Setting) (progress : Progress) :
    walk setting progress lexemes = (List.finRange lexemes.length).flatMap fun index : Fin _ =>
      foundAt setting (progress.through (lexemes.take index)) lexemes[index]
        (lexemes.drop (index + 1)) := by
  induction lexemes generalizing progress with
  | nil => rw [walk]; rfl
  | cons lexeme rest ih =>
      obtain ⟨here, later⟩ := List.forall_mem_cons.mp free
      have indices : List.finRange (lexeme :: rest).length =
          (0 : Fin (rest.length + 1)) :: (List.finRange rest.length).map Fin.succ :=
        List.finRange_succ
      rw [walk_step here, ih later, indices, List.flatMap_cons, List.flatMap_map]
      rfl

section Places

variable (setting : Setting) (index : Fin lexemes.length)

def foundThere : List Finding :=
  foundAt setting (Progress.start.through (lexemes.take index)) lexemes[index]
    (lexemes.drop (index + 1))

variable {setting index}

theorem mem_foundThere_iff {kind : SymbolKind} {written : List Char} {location : Location} :
    .definition kind written location ∈ foundThere setting index ↔
      ∃ name, Defines lexemes setting.format index lexemes[index] kind name ∧
        written = name.text ∧ location = name.location setting.uri := by
  have here : lexemes[index.val]? = some lexemes[index] := List.getElem?_eq_getElem index.isLt
  have noTransfer : ∀ collect : Bool, .definition kind written location ∉
      if collect then Transfer.findings setting.uri lexemes[index] (lexemes.drop (index + 1))
      else [] := by
    intro collect member
    split at member
    · obtain ⟨target, _, same⟩ := List.mem_map.mp member
      cases same
    · cases member
  unfold foundThere foundAt findingsAt
  by_cases recognized : lexemes[index].isRecognized = true
  · rw [if_pos recognized, List.mem_append, or_iff_left (noTransfer _)]
    by_cases behind : Closed (lexemes.take index)
    · rw [if_pos ((Progress.atSentenceStart_iff _).mpr behind)]
      exact Sentence.mem_findings_iff ⟨here, recognized, behind⟩ (Progress.inProcedureAt_iff here)
    · rw [if_neg fun start => behind ((Progress.atSentenceStart_iff _).mp start)]
      exact iff_of_false List.not_mem_nil fun ⟨name, defines, _⟩ => behind defines.start.behind
  · rw [if_neg recognized]
    refine iff_of_false ?_ fun ⟨name, defines, _⟩ => recognized defines.start.recognized
    intro member
    cases List.mem_singleton.mp member

theorem problems_transfer (uri : String) (word : Lexeme) (rest : List Lexeme) :
    (Transfer.findings uri word rest).filterMap Finding.problem? = [] := by
  rw [List.filterMap_eq_nil_iff]
  intro finding member
  obtain ⟨target, _, rfl⟩ := List.mem_map.mp member
  rfl

theorem problems_procedureName (inProcedure : Bool) (first : Lexeme) (rest : List Lexeme) :
    (Sentence.procedureName setting inProcedure first rest).filterMap Finding.problem? = [] := by
  rw [List.filterMap_eq_nil_iff]
  intro finding member
  rcases Sentence.mem_procedureName_iff.mp member with ⟨_, ⟨_, rfl⟩ | ⟨_, rfl⟩⟩ <;> rfl

theorem problems_dataEntry (first : Lexeme) (level : Nat) (rest : List Lexeme) :
    (Sentence.dataEntry setting first level rest).filterMap Finding.problem? =
      if ¬IsLevel level ∧ setting.options.strictLevels = true then
        [.warning (first.location setting.uri) Diagnostic.Code.invalidLevel
          ("Invalid level number " ++ toString level)]
      else [] := by
  unfold Sentence.dataEntry
  simp only [Sentence.isValidLevel_iff]
  by_cases valid : IsLevel level
  · rw [if_pos valid, if_neg fun both => both.1 valid]
    split
    · split <;> rfl
    · rfl
  · rw [if_neg valid]
    by_cases strict : setting.options.strictLevels = true
    · rw [if_pos strict, if_pos ⟨valid, strict⟩]
      rfl
    · rw [if_neg strict, if_neg fun both => strict both.2]
      rfl

theorem problems_foundThere : (foundThere setting index).filterMap Finding.problem? =
    reportsAt lexemes setting.uri setting.options.strictLevels index := by
  have here : lexemes[index.val]? = some lexemes[index] := List.getElem?_eq_getElem index.isLt
  have transfers : ∀ collect : Bool, (if collect then Transfer.findings setting.uri lexemes[index]
      (lexemes.drop (index + 1)) else []).filterMap Finding.problem? = [] := by
    intro collect
    split
    · exact problems_transfer _ _ _
    · rfl
  unfold foundThere foundAt findingsAt reportsAt
  by_cases recognized : lexemes[index].isRecognized = true
  · rw [if_pos recognized, List.filterMap_append, transfers, List.append_nil]
    simp only [recognized, Bool.true_eq_false, if_false]
    by_cases behind : Closed (lexemes.take index)
    · have start : StartsSentence lexemes index lexemes[index] := ⟨here, recognized, behind⟩
      rw [if_pos ((Progress.atSentenceStart_iff _).mpr behind)]
      unfold Sentence.findings
      rw [Sentence.level?_at start (Progress.inProcedureAt_iff here)]
      by_cases level : LevelAt lexemes index lexemes[index]
      · simp only [level, if_true, problems_dataEntry, true_and]
      · simp only [level, if_false, problems_procedureName, false_and]
    · rw [if_neg fun start => behind ((Progress.atSentenceStart_iff _).mp start),
        if_neg fun all => behind all.1.start.behind]
      rfl
  · rw [if_neg recognized, if_pos (Bool.eq_false_iff.mpr recognized)]
    rfl

end Places

/-! ### The whole text -/

/-- A text without COPY statements is accepted. Its definitions are those of the grammar, and its
diagnostics are the reports at its lexemes, in order. -/
theorem standard_recognizes_grammar (uri : String) (text : List Char) (format : Source.Format)
    (options : Options) (free : CopyFree (Lexeme.scan text)) :
    ∃ parsed, standard uri text format options = .ok parsed ∧
      (∀ key location, parsed.context.Knows (.definedAt key location) ↔
        ∃ index first kind name, Defines (Lexeme.scan text) format index first kind name ∧
          key = .ofWritten kind name.text ∧ location = name.location uri) ∧
      parsed.context.diagnostics = (List.finRange (Lexeme.scan text).length).flatMap
        (reportsAt (Lexeme.scan text) uri options.strictLevels) := by
  let setting : Setting := ⟨uri, format, options⟩
  have walked : findingsOf setting text =
      (List.finRange (Lexeme.scan text).length).flatMap (foundThere setting) :=
    walk_eq_flatMap free setting .start
  refine ⟨document uri text format options, rfl, fun key location => ?_, ?_⟩
  · unfold document
    rw [knows_ofFindings, walked]
    constructor
    · rintro ⟨finding, member, told⟩
      obtain ⟨kind, written, rfl, rfl⟩ := Finding.of_says_definedAt told
      obtain ⟨index, _, there⟩ := List.mem_flatMap.mp member
      obtain ⟨name, defines, rfl, place⟩ := mem_foundThere_iff.mp there
      exact ⟨index, _, kind, name, defines, rfl, place⟩
    · rintro ⟨index, first, kind, name, defines, rfl, rfl⟩
      obtain ⟨within, rfl⟩ := List.getElem?_eq_some_iff.mp defines.start.here
      have there : .definition kind name.text (name.location uri) ∈
          foundThere setting ⟨index, within⟩ :=
        mem_foundThere_iff.mpr ⟨name, defines, rfl, rfl⟩
      refine ⟨_, List.mem_flatMap.mpr ⟨_, List.mem_finRange _, there⟩, rfl, ?_⟩
      exact (OrderedSet.mem_insert _ _ _).mpr (Or.inl rfl)
  · unfold document
    rw [diagnostics_ofFindings, walked, List.filterMap_flatMap]
    exact List.flatMap_congr fun index _ => problems_foundThere

/-! #### A program with two faults -/

namespace Grammar.Sample

def text : List Char := "50 RATE.\nPROCEDURE DIVISION.\n0100. @".toList

def scanned : List Lexeme :=
  [⟨.integer, "50".toList, 0, 0, true⟩, ⟨.word, "RATE".toList, 0, 3, false⟩,
    ⟨.period, ['.'], 0, 7, true⟩, ⟨.word, "PROCEDURE".toList, 1, 0, true⟩,
    ⟨.word, "DIVISION".toList, 1, 10, false⟩, ⟨.period, ['.'], 1, 18, true⟩,
    ⟨.integer, "0100".toList, 2, 0, false⟩, ⟨.period, ['.'], 2, 4, true⟩,
    ⟨.unrecognized, ['@'], 2, 6, true⟩]

theorem scan_text : Lexeme.scan text = scanned := by decide +kernel

end Grammar.Sample

open Grammar in
/-- The level number and the stray character are reported. In the procedure division an integer
names a paragraph. -/
theorem sample_standard_recognizes_grammar :
    CopyFree (Lexeme.scan Sample.text) ∧
      ∃ parsed, standard "root" Sample.text .fixed ⟨true, true⟩ = .ok parsed ∧
        parsed.context.Knows (.definedAt (.ofWritten .paragraph "0100".toList)
          ⟨"root", .onLine 2 0 4⟩) ∧
        parsed.context.diagnostics.map Diagnostic.code =
          [some Diagnostic.Code.invalidLevel, some Diagnostic.Code.unexpectedCharacter] := by
  have free : CopyFree (Lexeme.scan Sample.text) := by
    rw [Sample.scan_text]
    decide
  obtain ⟨parsed, accepted, definitions, diagnostics⟩ :=
    standard_recognizes_grammar "root" Sample.text .fixed ⟨true, true⟩ free
  rw [Sample.scan_text] at definitions diagnostics
  refine ⟨free, parsed, accepted, ?_, ?_⟩
  · let name : Lexeme := ⟨.integer, "0100".toList, 2, 0, false⟩
    have named : NameAt Sample.scanned .fixed 6 name :=
      ⟨by decide, by decide, Or.inr rfl, Or.inr (Nat.zero_le 10)⟩
    have defines : Defines Sample.scanned .fixed 6 name .paragraph name :=
      .paragraph named rfl (by decide) (Or.inr (by decide))
    exact (definitions _ _).mpr ⟨6, name, .paragraph, name, defines, rfl, rfl⟩
  · rw [diagnostics]
    decide

end Parse

end CobolAnalysis
