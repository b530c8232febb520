/-
What a walk over lexemes defines, stretch by stretch.

A stretch that ends with a sentence is read without a look at what follows it. What it defines
depends on the stretch itself and on whether the procedure division has begun before it, and
not on the lines on which its lexemes stand. That division makes a difference only to
sentences that begin with an integer.
-/

import CobolAnalysis.Parse.Document
import CobolAnalysis.Proofs.Lexemes
import CobolAnalysis.Proofs.SymbolFacts
import Mathlib.Data.List.Induction

namespace CobolAnalysis

namespace Lexeme

theorem kind_of_isSeparator {lexeme : Lexeme} (ends : lexeme.isSeparator = true) :
    lexeme.kind = .period := by
  unfold isSeparator at ends
  rw [Bool.and_eq_true] at ends
  exact beq_iff_eq.mp ends.1

theorem isWord_of_kind {lexeme : Lexeme} (other : lexeme.kind ≠ .word) (keyword : String) :
    lexeme.isWord keyword = false := by
  unfold isWord
  rw [beq_eq_false_iff_ne.mpr other]
  rfl

theorem isWord_of_isSeparator {lexeme : Lexeme} (ends : lexeme.isSeparator = true)
    (keyword : String) : lexeme.isWord keyword = false := by
  apply isWord_of_kind
  rw [kind_of_isSeparator ends]
  decide

theorem isWord_of_unrecognized {lexeme : Lexeme} (unknown : lexeme.isRecognized = false)
    (keyword : String) : lexeme.isWord keyword = false := by
  apply isWord_of_kind
  intro word
  unfold isRecognized at unknown
  rw [word] at unknown
  cases unknown

theorem isRecognized_of_isWord {lexeme : Lexeme} {keyword : String}
    (word : lexeme.isWord keyword = true) : lexeme.isRecognized = true := by
  by_contra unknown
  rw [isWord_of_unrecognized (Bool.eq_false_iff.mpr unknown)] at word
  cases word

theorem answers_of_unplaced {lexeme other : Lexeme} (same : lexeme.unplaced = other.unplaced) :
    lexeme.isRecognized = other.isRecognized ∧
      (∀ keyword, lexeme.isWord keyword = other.isWord keyword) ∧
        lexeme.isSeparator = other.isSeparator :=
  ⟨(congrArg isRecognized same :), fun keyword => (congrArg (isWord · keyword) same :),
    (congrArg isSeparator same :)⟩

end Lexeme

namespace Parse

/-! ### Findings that count -/

def Finding.defined? : Finding → Option SymbolKey
  | definition kind written _ => some (.ofWritten kind written)
  | _ => none

def defined (findings : List Finding) : List SymbolKey := findings.filterMap Finding.defined?

def requested (findings : List Finding) : List LogicalName :=
  (findings.filterMap Finding.reference?).map Reference.name

theorem defined_append (first second : List Finding) :
    defined (first ++ second) = defined first ++ defined second := List.filterMap_append

theorem requested_append (first second : List Finding) :
    requested (first ++ second) = requested first ++ requested second := by
  unfold requested
  rw [List.filterMap_append, List.map_append]

theorem Finding.defines_record (context : Context) (finding : Finding) (key : SymbolKey) :
    (finding.record context).Defines key ↔
      context.Defines key ∨ finding.defined? = some key := by
  cases finding with
  | problem diagnostic => exact (or_iff_left nofun).symm
  | definition kind written location =>
      exact (context.defines_define kind written location key).trans
        (or_congr_right (eq_comm.trans Option.some_inj.symm))
  | usage kind written location =>
      exact (context.defines_use kind written location key).trans (or_iff_left nofun).symm
  | copy reference =>
      exact (context.defines_use .copybook reference.name.text reference.location key).trans
        (or_iff_left nofun).symm

theorem defines_ofFindings (findings : List Finding) (key : SymbolKey) :
    (ParsedDocument.ofFindings findings).context.Defines key ↔ key ∈ defined findings := by
  have recorded : ∀ context : Context, (findings.foldl Finding.record context).Defines key ↔
      context.Defines key ∨ key ∈ defined findings := by
    induction findings with
    | nil => exact fun context => (or_iff_left List.not_mem_nil).symm
    | cons finding rest ih =>
        intro context
        rw [List.foldl_cons, ih, Finding.defines_record, or_assoc]
        apply or_congr_right
        unfold defined
        simp only [List.mem_filterMap, List.mem_cons, exists_eq_or_imp]
  have nothing : ¬Context.empty.Defines key := by
    rintro ⟨location, known⟩
    exact Context.not_knows_ofDiagnostics [] _ known
  exact (recorded .empty).trans (or_iff_right nothing)

def Finding.problem? : Finding → Option Diagnostic
  | problem diagnostic => some diagnostic
  | _ => none

theorem diagnostics_ofFindings (findings : List Finding) :
    (ParsedDocument.ofFindings findings).context.diagnostics =
      findings.filterMap Finding.problem? := by
  have recorded : ∀ context : Context, (findings.foldl Finding.record context).diagnostics =
      context.diagnostics ++ findings.filterMap Finding.problem? := by
    induction findings with
    | nil => exact fun context => (List.append_nil _).symm
    | cons finding rest ih =>
        intro context
        rw [List.foldl_cons, ih]
        cases finding with
        | problem diagnostic => exact List.append_assoc _ [diagnostic] _
        | definition kind written location => rfl
        | usage kind written location => rfl
        | copy reference => rfl
  exact (recorded .empty).trans (List.nil_append _)

theorem Finding.problem?_eq_some_iff {finding : Finding} {diagnostic : Diagnostic} :
    finding.problem? = some diagnostic ↔ finding = .problem diagnostic := by
  cases finding <;> simp [Finding.problem?]

theorem mem_diagnostics_ofFindings (findings : List Finding) (diagnostic : Diagnostic) :
    diagnostic ∈ (ParsedDocument.ofFindings findings).context.diagnostics ↔
      .problem diagnostic ∈ findings := by
  rw [diagnostics_ofFindings, List.mem_filterMap]
  simp only [Finding.problem?_eq_some_iff, exists_eq_right]

theorem Transfer.defined_findings (uri : String) (word : Lexeme) (rest : List Lexeme) :
    defined (findings uri word rest) = [] ∧ requested (findings uri word rest) = [] := by
  have nothing : ∀ finding ∈ findings uri word rest,
      finding.defined? = none ∧ finding.reference? = none := by
    intro finding member
    obtain ⟨target, _, rfl⟩ := List.mem_map.mp member
    exact ⟨rfl, rfl⟩
  constructor
  · exact List.filterMap_eq_nil_iff.mpr fun finding member => (nothing finding member).1
  · unfold requested
    rw [List.filterMap_eq_nil_iff.mpr fun finding member => (nothing finding member).2]
    rfl

namespace Sentence

theorem mem_findings_cases {setting : Setting} {inProcedure : Bool} {first : Lexeme}
    {rest : List Lexeme} {finding : Finding}
    (member : finding ∈ findings setting inProcedure first rest) :
    (∃ kind name, kind ≠ .copybook ∧ (name = first ∨ rest[0]? = some name) ∧
      finding = .definition kind name.text (name.location setting.uri)) ∨
    ∃ message, finding = .problem (.warning (first.location setting.uri)
      Diagnostic.Code.invalidLevel message) := by
  unfold findings at member
  cases levelled : level? inProcedure first with
  | some level =>
      simp only [levelled, dataEntry] at member
      split at member
      · cases rest with
        | nil => cases member
        | cons name others =>
            simp only [List.head?_cons] at member
            split at member
            · exact Or.inl ⟨.dataItem, name, nofun, Or.inr rfl, List.mem_singleton.mp member⟩
            · cases member
      split at member
      · exact Or.inr ⟨_, List.mem_singleton.mp member⟩
      · cases member
  | none =>
      simp only [levelled, procedureName] at member
      split at member
      · split at member
        · exact Or.inl ⟨.procedureSection, first, nofun, Or.inl rfl, List.mem_singleton.mp member⟩
        split at member
        · exact Or.inl ⟨.paragraph, first, nofun, Or.inl rfl, List.mem_singleton.mp member⟩
        · cases member
      · cases member

theorem requested_findings (setting : Setting) (inProcedure : Bool) (first : Lexeme)
    (rest : List Lexeme) : requested (findings setting inProcedure first rest) = [] := by
  unfold requested
  rw [List.map_eq_nil_iff, List.filterMap_eq_nil_iff]
  intro finding member
  rcases mem_findings_cases member with ⟨_, _, _, _, rfl⟩ | ⟨_, rfl⟩
  · rfl
  · rfl

theorem findings_of_isSeparator {first : Lexeme} (ends : first.isSeparator = true)
    (setting : Setting) (inProcedure : Bool) (rest : List Lexeme) :
    findings setting inProcedure first rest = [] := by
  have period := Lexeme.kind_of_isSeparator ends
  have unlevelled : level? inProcedure first = none := by
    unfold level?
    rw [period]
    simp
  have unnamed : first.isName = false := by
    unfold Lexeme.isName
    rw [period]
    rfl
  unfold findings procedureName
  rw [unlevelled, unnamed]
  rfl

theorem findings_append {rest : List Lexeme} (ends : ∃ period ∈ rest, period.isSeparator = true)
    (setting : Setting) (inProcedure : Bool) (first : Lexeme) (more : List Lexeme) :
    findings setting inProcedure first (rest ++ more) =
      findings setting inProcedure first rest := by
  match rest with
  | [] => obtain ⟨_, none, _⟩ := ends; cases none
  | [next] =>
      obtain ⟨period, member, isSeparator⟩ := ends
      rw [List.mem_singleton.mp member] at isSeparator
      have noWord := Lexeme.isWord_of_isSeparator isSeparator "SECTION"
      have sections : ∀ others, beginsSection first (next :: others) = false := by
        intro others
        simp only [beginsSection, List.getElem?_cons_zero, Option.any_some, noWord,
          Bool.false_and]
      simp only [findings, procedureName, List.singleton_append, sections]
      rfl
  | next :: after :: others => rfl

/-- Whether the procedure division has begun makes no difference unless an integer comes first. -/
theorem findings_of_not_integer {first : Lexeme} (other : first.kind ≠ .integer)
    (setting : Setting) (inProcedure : Bool) (rest : List Lexeme) :
    findings setting inProcedure first rest = findings setting false first rest := by
  have unlevelled : ∀ begun, level? begun first = none := by
    intro begun
    unfold level?
    rw [beq_eq_false_iff_ne.mpr other]
    simp
  unfold findings procedureName
  rw [unlevelled, unlevelled]
  simp only
  by_cases named : first.isName = true
  · have word : first.kind = .word := by
      unfold Lexeme.isName at named
      rw [beq_eq_false_iff_ne.mpr other, Bool.or_false] at named
      exact beq_iff_eq.mp named
    have paragraphs : beginsParagraph inProcedure first rest =
        beginsParagraph false first rest := by
      unfold beginsParagraph
      rw [word]
      simp
    rw [paragraphs]
  · rw [Bool.eq_false_iff.mpr named]
    rfl

/-! #### On whatever line -/

def plain (format : Source.Format) : Setting := ⟨"", format, ⟨false, false⟩⟩

theorem defined_findings (setting : Setting) (inProcedure : Bool) (first : Lexeme)
    (rest : List Lexeme) :
    defined (findings setting inProcedure first rest) =
      defined (findings (plain setting.format) inProcedure first.unplaced
        (rest.map Lexeme.unplaced)) := by
  have levels : level? inProcedure first.unplaced = level? inProcedure first := rfl
  have sections : beginsSection first.unplaced (rest.map Lexeme.unplaced) =
      beginsSection first rest := by
    rcases rest with _ | ⟨next, _ | ⟨after, others⟩⟩ <;> rfl
  have paragraphs : beginsParagraph inProcedure first.unplaced (rest.map Lexeme.unplaced) =
      beginsParagraph inProcedure first rest := by
    rcases rest with _ | ⟨next, others⟩ <;> rfl
  unfold findings
  rw [levels]
  cases level? inProcedure first with
  | some level =>
      simp only [dataEntry]
      by_cases valid : isValidLevel level
      · rw [if_pos valid, if_pos valid]
        cases rest with
        | nil => rfl
        | cons next others =>
            change defined (if next.kind == .word && !next.isAnyOf dataClauses then _ else _) =
              defined (if next.kind == .word && !next.isAnyOf dataClauses then _ else _)
            split <;> rfl
      · rw [if_neg valid, if_neg valid]
        split <;> rfl
  | none =>
      simp only [procedureName]
      rw [sections, paragraphs]
      change defined (if first.isName && inAreaA setting.format first then _ else _) =
        defined (if first.isName && inAreaA setting.format first then _ else _)
      split
      · split
        · rfl
        · split <;> rfl
      · rfl

end Sentence

/-! ### One step of the walk -/

namespace Progress

def step (progress : Progress) (lexeme : Lexeme) : Progress :=
  if lexeme.isRecognized then progress.past lexeme else progress.pastUnrecognized lexeme

def through (progress : Progress) (lexemes : List Lexeme) : Progress := lexemes.foldl step progress

/-- Whatever comes next is read in the same way. -/
structure Alike (first second : Progress) : Prop where
  start : first.atSentenceStart = second.atSentenceStart
  procedure : ∀ lexeme, first.inProcedureAt lexeme = second.inProcedureAt lexeme

theorem inProcedureAt_of_isWord {lexeme : Lexeme} (other : lexeme.isWord "DIVISION" = false)
    (progress : Progress) : progress.inProcedureAt lexeme = progress.inProcedure := by
  unfold inProcedureAt
  cases progress.previous with
  | none => rfl
  | some previous =>
      simp only [other]
      rfl

theorem Alike.symm {first second : Progress} (alike : first.Alike second) : second.Alike first :=
  ⟨alike.start.symm, fun lexeme => (alike.procedure lexeme).symm⟩

theorem Alike.trans {first second third : Progress} (one : first.Alike second)
    (other : second.Alike third) : first.Alike third :=
  ⟨one.start.trans other.start, fun lexeme =>
    (one.procedure lexeme).trans (other.procedure lexeme)⟩

theorem Alike.inProcedure {first second : Progress} (alike : first.Alike second) :
    first.inProcedure = second.inProcedure := by
  let stop : Lexeme := ⟨.period, ['.'], 0, 0, true⟩
  have period : stop.isWord "DIVISION" = false := Lexeme.isWord_of_kind (by decide) "DIVISION"
  rw [← inProcedureAt_of_isWord period, ← inProcedureAt_of_isWord period, alike.procedure]

theorem Alike.step {first second : Progress} (alike : first.Alike second)
    {lexeme other : Lexeme} (same : lexeme.unplaced = other.unplaced) :
    (first.step lexeme).Alike (second.step other) := by
  obtain ⟨recognized, word, ends⟩ := Lexeme.answers_of_unplaced same
  have here : first.inProcedureAt lexeme = second.inProcedureAt other := by
    rw [alike.procedure]
    unfold inProcedureAt
    rw [word]
  unfold Progress.step
  rw [recognized]
  split
  · refine ⟨ends, fun next => ?_⟩
    unfold inProcedureAt past
    simp only [here, word]
  · refine ⟨alike.start, fun next => ?_⟩
    unfold inProcedureAt pastUnrecognized
    simp only [alike.inProcedure, word]

theorem Alike.through {first second : Progress} (alike : first.Alike second)
    {lexemes others : List Lexeme}
    (same : lexemes.map Lexeme.unplaced = others.map Lexeme.unplaced) :
    (first.through lexemes).Alike (second.through others) := by
  induction lexemes generalizing others first second with
  | nil =>
      rw [List.map_nil, eq_comm, List.map_eq_nil_iff] at same
      rw [same]
      exact alike
  | cons lexeme rest ih =>
      cases others with
      | nil => cases same
      | cons other more =>
          obtain ⟨here, later⟩ := List.cons.inj same
          exact ih (alike.step here) later

/-- At the start of a sentence, some sentence having ended before. -/
def resumed (inProcedure : Bool) : Progress :=
  ⟨some ⟨.period, ['.'], 0, 0, true⟩, true, inProcedure⟩

theorem start_alike_resumed : start.Alike (resumed false) := by
  refine ⟨rfl, fun lexeme => ?_⟩
  change false = if lexeme.isWord "DIVISION" then false else false
  rw [ite_self]

theorem alike_resumed {progress : Progress} {last : Lexeme} (behind : progress.previous = some last)
    (other : last.isWord "PROCEDURE" = false) (start : progress.atSentenceStart = true) :
    progress.Alike (resumed progress.inProcedure) := by
  refine ⟨start, fun lexeme => ?_⟩
  unfold inProcedureAt
  rw [behind]
  simp only [other]
  rfl

end Progress

/-- The stretch has no COPY statement. -/
def CopyFree (lexemes : List Lexeme) : Prop := ∀ lexeme ∈ lexemes, lexeme.isWord "COPY" = false

instance (lexemes : List Lexeme) : Decidable (CopyFree lexemes) :=
  inferInstanceAs (Decidable (∀ lexeme ∈ lexemes, lexeme.isWord "COPY" = false))

/-- The stretch ends with a sentence, or holds nothing that could be part of one. -/
def Closed (lexemes : List Lexeme) : Prop :=
  ∀ last ∈ (lexemes.filter Lexeme.isRecognized).getLast?, last.isSeparator = true

instance (lexemes : List Lexeme) : Decidable (Closed lexemes) :=
  inferInstanceAs (Decidable
    (∀ last ∈ (lexemes.filter Lexeme.isRecognized).getLast?, last.isSeparator = true))

theorem Closed.tail {lexeme : Lexeme} {rest : List Lexeme} (closed : Closed (lexeme :: rest)) :
    Closed rest := by
  intro last ends
  apply closed last
  rw [List.filter_cons]
  split
  · rw [List.getLast?_cons, ends]
    rfl
  · exact ends

theorem Closed.cons_cases {lexeme : Lexeme} {rest : List Lexeme}
    (closed : Closed (lexeme :: rest)) (recognized : lexeme.isRecognized = true) :
    lexeme.isSeparator = true ∨ ∃ period ∈ rest, period.isSeparator = true := by
  unfold Closed at closed
  rw [List.filter_cons, if_pos recognized, List.getLast?_cons] at closed
  cases ends : (rest.filter Lexeme.isRecognized).getLast? with
  | none =>
      rw [ends] at closed
      exact Or.inl (closed lexeme rfl)
  | some last =>
      rw [ends] at closed
      have member := List.mem_of_getLast? ends
      exact Or.inr ⟨last, (List.mem_filter.mp member).1, closed last rfl⟩

theorem Closed.last {earlier : List Lexeme} {last : Lexeme} (closed : Closed (earlier ++ [last]))
    (recognized : last.isRecognized = true) : last.isSeparator = true := by
  apply closed last
  rw [List.filter_append, List.filter_cons_of_pos recognized, List.filter_nil,
    List.getLast?_concat]
  rfl

theorem Closed.earlier {earlier : List Lexeme} {last : Lexeme} (closed : Closed (earlier ++ [last]))
    (unknown : ¬last.isRecognized = true) : Closed earlier := by
  intro previous ends
  apply closed previous
  rw [List.filter_append, List.filter_cons_of_neg unknown, List.filter_nil, List.append_nil]
  exact ends

theorem Closed.last_isWord {earlier : List Lexeme} {last : Lexeme}
    (closed : Closed (earlier ++ [last])) (keyword : String) : last.isWord keyword = false := by
  by_cases recognized : last.isRecognized = true
  · exact Lexeme.isWord_of_isSeparator (closed.last recognized) keyword
  · exact Lexeme.isWord_of_unrecognized (Bool.eq_false_iff.mpr recognized) keyword

/-- After a stretch that ends with a sentence, the next one begins. -/
theorem Progress.Alike.closed {progress : Progress} {inProcedure : Bool} {lexemes : List Lexeme}
    (alike : progress.Alike (.resumed inProcedure)) (closed : Closed lexemes) :
    (progress.through lexemes).Alike (.resumed (progress.through lexemes).inProcedure) := by
  induction lexemes using List.reverseRecOn with
  | nil =>
      have same := alike.inProcedure
      change progress.Alike (.resumed progress.inProcedure)
      rw [same]
      exact alike
  | append_singleton earlier last ih =>
      have splits : progress.through (earlier ++ [last]) = (progress.through earlier).step last :=
        List.foldl_append
      have other := closed.last_isWord "PROCEDURE"
      rw [splits]
      unfold Progress.step
      split
      next recognized => exact Progress.alike_resumed rfl other (closed.last recognized)
      next unknown => exact Progress.alike_resumed rfl other (ih (closed.earlier unknown)).start

/-! ### Stretches without COPY statements -/

def definedHere (setting : Setting) (progress : Progress) (lexeme : Lexeme) (rest : List Lexeme) :
    List SymbolKey :=
  if lexeme.isRecognized && progress.atSentenceStart then
    defined (Sentence.findings setting (progress.inProcedureAt lexeme) lexeme rest)
  else []

theorem defined_findingsAt (setting : Setting) (progress : Progress) (lexeme : Lexeme)
    (rest : List Lexeme) :
    defined (findingsAt setting progress lexeme rest) =
        (if progress.atSentenceStart then
          defined (Sentence.findings setting (progress.inProcedureAt lexeme) lexeme rest)
        else []) ∧
      requested (findingsAt setting progress lexeme rest) = [] := by
  obtain ⟨noDefinition, noRequest⟩ := Transfer.defined_findings setting.uri lexeme rest
  have sentences :=
    Sentence.requested_findings setting (progress.inProcedureAt lexeme) lexeme rest
  unfold findingsAt
  rw [defined_append, requested_append]
  constructor
  · rw [apply_ite defined, apply_ite defined, noDefinition]
    exact (congrArg (_ ++ ·) (ite_self [])).trans (List.append_nil _)
  · rw [apply_ite requested, apply_ite requested, sentences, noRequest]
    exact (congrArg₂ (· ++ ·) (ite_self []) (ite_self []))

def foundAt (setting : Setting) (progress : Progress) (lexeme : Lexeme) (rest : List Lexeme) :
    List Finding :=
  if lexeme.isRecognized then findingsAt setting progress lexeme rest
  else [unexpected setting.uri lexeme]

/-- What is found outside COPY statements is an unexpected character, belongs to the sentence that
starts here, or is the target of a transfer. -/
theorem mem_foundAt_cases {setting : Setting} {progress : Progress} {lexeme : Lexeme}
    {rest : List Lexeme} {finding : Finding}
    (member : finding ∈ foundAt setting progress lexeme rest) :
    finding = unexpected setting.uri lexeme ∨
      (∃ inProcedure, finding ∈ Sentence.findings setting inProcedure lexeme rest) ∨
        ∃ target ∈ Transfer.targets lexeme rest,
          finding = .usage .paragraph target.text (target.location setting.uri) := by
  unfold foundAt at member
  split at member
  · rcases List.mem_append.mp member with sentence | transfer
    · split at sentence
      · exact Or.inr (Or.inl ⟨_, sentence⟩)
      · cases sentence
    · split at transfer
      · obtain ⟨target, among, same⟩ := List.mem_map.mp transfer
        exact Or.inr (Or.inr ⟨target, among, same.symm⟩)
      · cases transfer
  · exact Or.inl (List.mem_singleton.mp member)

theorem walk_step {lexeme : Lexeme} (other : lexeme.isWord "COPY" = false) (setting : Setting)
    (progress : Progress) (rest : List Lexeme) :
    walk setting progress (lexeme :: rest) =
      foundAt setting progress lexeme rest ++ walk setting (progress.step lexeme) rest := by
  rw [walk, other]
  unfold foundAt Progress.step
  cases lexeme.isRecognized <;> rfl

theorem walk_cons {setting : Setting} {progress : Progress} {lexeme : Lexeme}
    (other : lexeme.isWord "COPY" = false) (rest : List Lexeme) :
    defined (walk setting progress (lexeme :: rest)) =
        definedHere setting progress lexeme rest ++
          defined (walk setting (progress.step lexeme) rest) ∧
      requested (walk setting progress (lexeme :: rest)) =
        requested (walk setting (progress.step lexeme) rest) := by
  rw [walk_step other, defined_append, requested_append]
  unfold foundAt definedHere
  by_cases recognized : lexeme.isRecognized = true
  · obtain ⟨defines, asksNothing⟩ := defined_findingsAt setting progress lexeme rest
    rw [recognized]
    simp only [if_true, Bool.true_and, defines, asksNothing, List.nil_append, and_self]
  · rw [Bool.eq_false_iff.mpr recognized]
    exact ⟨rfl, rfl⟩

theorem definedHere_append {lexeme : Lexeme} {rest : List Lexeme}
    (closed : Closed (lexeme :: rest)) (setting : Setting) (progress : Progress)
    (more : List Lexeme) :
    definedHere setting progress lexeme (rest ++ more) =
      definedHere setting progress lexeme rest := by
  unfold definedHere
  by_cases recognized : lexeme.isRecognized = true
  · rcases closed.cons_cases recognized with ends | ends
    · rw [Sentence.findings_of_isSeparator ends, Sentence.findings_of_isSeparator ends]
    · rw [Sentence.findings_append ends]
  · rw [Bool.eq_false_iff.mpr recognized]
    rfl

/-- A stretch that ends with a sentence is read by itself, and so is what follows it. -/
theorem defined_walk_append {own : List Lexeme} (free : CopyFree own) (closed : Closed own)
    (setting : Setting) (progress : Progress) (rest : List Lexeme) :
    defined (walk setting progress (own ++ rest)) =
      defined (walk setting progress own) ++
        defined (walk setting (progress.through own) rest) := by
  induction own generalizing progress with
  | nil =>
      rw [walk]
      rfl
  | cons lexeme others ih =>
      obtain ⟨here, later⟩ := List.forall_mem_cons.mp free
      rw [List.cons_append, (walk_cons here _).1, (walk_cons here _).1, definedHere_append closed,
        ih later closed.tail, List.append_assoc]
      rfl

theorem requested_walk_append {own : List Lexeme} (free : CopyFree own) (setting : Setting)
    (progress : Progress) (rest : List Lexeme) :
    requested (walk setting progress (own ++ rest)) =
      requested (walk setting (progress.through own) rest) := by
  induction own generalizing progress with
  | nil => rfl
  | cons lexeme others ih =>
      obtain ⟨here, later⟩ := List.forall_mem_cons.mp free
      rw [List.cons_append, (walk_cons here _).2, ih later]
      rfl

theorem requested_walk {own : List Lexeme} (free : CopyFree own) (setting : Setting)
    (progress : Progress) : requested (walk setting progress own) = [] := by
  have alone := requested_walk_append free setting progress []
  rw [List.append_nil] at alone
  rw [alone, walk]
  rfl

theorem defined_walk_congr {setting other : Setting} (format : setting.format = other.format)
    {own moved : List Lexeme} (free : CopyFree own)
    (same : own.map Lexeme.unplaced = moved.map Lexeme.unplaced) {first second : Progress}
    (alike : first.Alike second) :
    defined (walk setting first own) = defined (walk other second moved) := by
  induction own generalizing moved first second with
  | nil =>
      rw [List.map_nil, eq_comm, List.map_eq_nil_iff] at same
      rw [same, walk, walk]
  | cons lexeme rest ih =>
      cases moved with
      | nil => cases same
      | cons next more =>
          obtain ⟨here, later⟩ := List.cons.inj same
          obtain ⟨freeHere, freeLater⟩ := List.forall_mem_cons.mp free
          obtain ⟨recognized, word, _⟩ := Lexeme.answers_of_unplaced here
          have places : first.inProcedureAt lexeme = second.inProcedureAt next := by
            rw [alike.procedure]
            unfold Progress.inProcedureAt
            rw [word]
          have same : definedHere setting first lexeme rest =
              definedHere other second next more := by
            unfold definedHere
            rw [recognized, alike.start, places, Sentence.defined_findings, here, later, format,
              ← Sentence.defined_findings]
          rw [(walk_cons freeHere rest).1, (walk_cons ((word "COPY").symm.trans freeHere) more).1,
            same, ih freeLater later (alike.step here)]

/-! ### Inside and outside the procedure division -/

/-- Before the first word DIVISION, no sentence begins with an integer. -/
def LevelFree : Bool → List Lexeme → Prop
  | _, [] => True
  | start, lexeme :: rest =>
      if lexeme.isRecognized then
        lexeme.isWord "DIVISION" = false →
          (start = true → lexeme.kind ≠ .integer) ∧ LevelFree lexeme.isSeparator rest
      else LevelFree start rest

instance decidableLevelFree : (start : Bool) → (lexemes : List Lexeme) →
    Decidable (LevelFree start lexemes)
  | _, [] => isTrue trivial
  | start, lexeme :: rest =>
      have := decidableLevelFree lexeme.isSeparator rest
      have := decidableLevelFree start rest
      inferInstanceAs (Decidable (if lexeme.isRecognized then
          lexeme.isWord "DIVISION" = false →
            (start = true → lexeme.kind ≠ .integer) ∧ LevelFree lexeme.isSeparator rest
        else LevelFree start rest))

theorem defined_walk_levelFree {own : List Lexeme} (free : CopyFree own) (setting : Setting)
    {previous : Lexeme} {start : Bool} (levelFree : LevelFree start own) :
    defined (walk setting ⟨some previous, start, true⟩ own) =
      defined (walk setting ⟨some previous, start, false⟩ own) := by
  induction own generalizing previous start with
  | nil => rw [walk, walk]
  | cons lexeme rest ih =>
      obtain ⟨freeHere, freeLater⟩ := List.forall_mem_cons.mp free
      rw [(walk_cons freeHere rest).1, (walk_cons freeHere rest).1]
      unfold LevelFree at levelFree
      split at levelFree
      next recognized =>
        have after : ∀ begun, Progress.step ⟨some previous, start, begun⟩ lexeme =
            ⟨some lexeme, lexeme.isSeparator,
              Progress.inProcedureAt ⟨some previous, start, begun⟩ lexeme⟩ := by
          intro begun
          unfold Progress.step
          rw [if_pos recognized]
          rfl
        by_cases division : lexeme.isWord "DIVISION" = true
        · -- From here on it is the same whether the procedure division had begun.
          have same : ∀ begun, Progress.inProcedureAt ⟨some previous, start, begun⟩ lexeme =
              previous.isWord "PROCEDURE" := fun begun => if_pos division
          unfold definedHere
          rw [after, after, same, same]
        · have elsewhere : ∀ begun, Progress.inProcedureAt ⟨some previous, start, begun⟩ lexeme =
              begun := fun begun => if_neg division
          obtain ⟨noInteger, later⟩ := levelFree (Bool.eq_false_iff.mpr division)
          have here : definedHere setting ⟨some previous, start, true⟩ lexeme rest =
              definedHere setting ⟨some previous, start, false⟩ lexeme rest := by
            unfold definedHere
            rw [elsewhere, elsewhere]
            cases start with
            | true => rw [Sentence.findings_of_not_integer (noInteger rfl)]
            | false => rw [Bool.and_false]; rfl
          rw [here, after, after, elsewhere, elsewhere, ih freeLater later]
      next unknown =>
        have after : ∀ begun, Progress.step ⟨some previous, start, begun⟩ lexeme =
            ⟨some lexeme, start, begun⟩ := by
          intro begun
          unfold Progress.step
          rw [if_neg unknown]
          rfl
        unfold definedHere
        rw [Bool.eq_false_iff.mpr unknown, after, after, ih freeLater levelFree]
        rfl

/-! ### COPY statements that stand alone -/

theorem walk_copy (setting : Setting) (progress : Progress) {copy : Lexeme}
    (isCopy : copy.isWord "COPY" = true) (rest : List Lexeme) :
    walk setting progress (copy :: rest) =
      CopyStatement.finding setting.uri copy rest ::
        walk setting (progress.pastCopy copy (rest.take (CopyStatement.extent rest)))
          (rest.drop (CopyStatement.extent rest)) := by
  rw [walk, Lexeme.isRecognized_of_isWord isCopy, if_neg (by decide), if_pos isCopy]

/-- The walk goes past a COPY statement, or past one other lexeme. -/
@[elab_as_elim]
theorem walk_induction {motive : Progress → List Lexeme → Prop}
    (nil : ∀ progress, motive progress [])
    (copy : ∀ progress lexeme rest, lexeme.isWord "COPY" = true →
      motive (progress.pastCopy lexeme (rest.take (CopyStatement.extent rest)))
        (rest.drop (CopyStatement.extent rest)) → motive progress (lexeme :: rest))
    (other : ∀ progress lexeme rest, lexeme.isWord "COPY" = false →
      motive (progress.step lexeme) rest → motive progress (lexeme :: rest))
    (progress : Progress) (lexemes : List Lexeme) : motive progress lexemes := by
  induction progress, lexemes using walk.induct with
  | case1 progress => exact nil progress
  | case2 progress lexeme rest unknown ih =>
      have unrecognized : lexeme.isRecognized = false := by simpa using unknown
      apply other progress lexeme rest (Lexeme.isWord_of_unrecognized unrecognized "COPY")
      unfold Progress.step
      rw [unrecognized]
      exact ih
  | case3 progress lexeme rest recognized isCopy ih => exact copy progress lexeme rest isCopy ih
  | case4 progress lexeme rest recognized noCopy ih =>
      have known : lexeme.isRecognized = true := by simpa using recognized
      apply other progress lexeme rest (Bool.eq_false_iff.mpr noCopy)
      unfold Progress.step
      rw [known]
      exact ih

namespace CopyStatement

theorem operand?_cons {operand : Lexeme}
    (names : (operand.isName || operand.kind == .literal) = true) (rest : List Lexeme) :
    operand? (operand :: rest) = some operand := by
  unfold operand?
  rw [List.head?_cons, Option.filter_some, if_pos names]

/-- The copybook that is named, if the lexemes are one complete COPY statement. -/
def alone? (lexemes : List Lexeme) : Option LogicalName :=
  match lexemes with
  | [copy, name, period] =>
      if copy.isWord "COPY" && (name.isName || name.kind == .literal) && period.isSeparator then
        (LogicalName.parse name.text).toOption
      else none
  | _ => none

end CopyStatement

theorem walk_threeLexemes (setting : Setting) (progress : Progress) {copy operand period : Lexeme}
    {name : LogicalName} (isCopy : copy.isWord "COPY" = true)
    (names : (operand.isName || operand.kind == .literal) = true)
    (parsed : LogicalName.parse operand.text = .ok name) (ends : period.isSeparator = true)
    (rest : List Lexeme) :
    walk setting progress (copy :: operand :: period :: rest) =
      .copy ⟨name, operand.location setting.uri⟩ ::
        walk setting (progress.pastCopy copy [operand, period]) rest := by
  have noWord := Lexeme.isWord_of_isSeparator ends
  have found := CopyStatement.operand?_cons names (period :: rest)
  have extent : CopyStatement.extent (operand :: period :: rest) = 2 := by
    unfold CopyStatement.extent
    rw [found]
    simp only [CopyStatement.libraryExtent, List.drop_succ_cons, List.drop_zero,
      List.head?_cons, noWord, Bool.or_self, Bool.false_eq_true, if_false, Nat.add_zero,
      CopyStatement.endingExtent, ends, if_true]
  have asks : CopyStatement.finding setting.uri copy (operand :: period :: rest) =
      .copy ⟨name, operand.location setting.uri⟩ := by
    unfold CopyStatement.finding
    rw [found]
    simp only [parsed]
  rw [walk_copy setting progress isCopy, extent, asks]
  rfl

/-- A statement that stands alone asks for its copybook and defines nothing; after it a sentence can
begin. -/
theorem walk_alone (setting : Setting) (progress : Progress) {statement : List Lexeme}
    {name : LogicalName} (alone : CopyStatement.alone? statement = some name)
    (rest : List Lexeme) :
    ∃ after : Progress, after.Alike (.resumed progress.inProcedure) ∧
      defined (walk setting progress (statement ++ rest)) = defined (walk setting after rest) ∧
      requested (walk setting progress (statement ++ rest)) =
        name :: requested (walk setting after rest) := by
  unfold CopyStatement.alone? at alone
  split at alone
  next copy operand period =>
    split at alone
    next shape =>
      simp only [Bool.and_eq_true] at shape
      obtain ⟨⟨isCopy, names⟩, ends⟩ := shape
      have parsed : LogicalName.parse operand.text = .ok name := by
        cases read : LogicalName.parse operand.text with
        | error failure =>
            rw [read] at alone
            cases alone
        | ok other =>
            rw [read] at alone
            cases alone
            rfl
      refine ⟨progress.pastCopy copy [operand, period], ?_, ?_⟩
      · exact Progress.alike_resumed rfl (Lexeme.isWord_of_isSeparator ends "PROCEDURE") rfl
      · change defined (walk setting progress (copy :: operand :: period :: rest)) = _ ∧
          requested (walk setting progress (copy :: operand :: period :: rest)) = _
        rw [walk_threeLexemes setting progress isCopy names parsed ends]
        exact ⟨rfl, rfl⟩
    next => cases alone
  next => cases alone

end Parse

end CobolAnalysis
