/-
What the options of the parser leave out.

With an option switched off, the parser takes the same walk and finds the same, less the findings
that the option is about: the targets of transfers, or the reports of level numbers that do not
exist. Neither is a reference, so the document asks for the same copybooks.
-/

import CobolAnalysis.Proofs.Merging
import CobolAnalysis.Proofs.Parse.Walk

namespace CobolAnalysis

/-! ### Contexts that differ in little -/

namespace Context

/-- The first context is the second one without usages of paragraphs: a paragraph is left if it is
defined. Paragraphs may have lost their places in the order of symbols, but no other symbol has. -/
structure WithoutTransfers (plain full : Context) : Prop where
  definitions : ∀ key location, plain.Knows (.definedAt key location) ↔
    full.Knows (.definedAt key location)
  usages : ∀ key location, plain.Knows (.usedAt key location) ↔
    full.Knows (.usedAt key location) ∧ key.kind ≠ .paragraph
  paragraphs : ∀ name, plain.Knows (.mentioned ⟨.paragraph, name⟩) ↔
    full.Defines ⟨.paragraph, name⟩
  others : (plain.symbols.keys.filter fun key => key.kind ≠ .paragraph) =
    full.symbols.keys.filter fun key => key.kind ≠ .paragraph
  diagnostics : plain.diagnostics = full.diagnostics

namespace WithoutTransfers

variable {plain full : Context}

theorem ofDiagnostics (diagnostics : List Diagnostic) :
    WithoutTransfers (.ofDiagnostics diagnostics) (.ofDiagnostics diagnostics) where
  definitions := fun _ _ => Iff.rfl
  usages := fun _ _ => (and_iff_left_of_imp fun known =>
    absurd known (not_knows_ofDiagnostics diagnostics _)).symm
  paragraphs := fun _ => iff_of_false (not_knows_ofDiagnostics diagnostics _)
    fun ⟨_, known⟩ => not_knows_ofDiagnostics diagnostics _ known
  others := rfl
  diagnostics := rfl

theorem mentioned (without : WithoutTransfers plain full) {key : SymbolKey}
    (other : key.kind ≠ .paragraph) : key ∈ plain.symbols.keys ↔ key ∈ full.symbols.keys := by
  have filtered : ∀ keys : List SymbolKey,
      key ∈ keys.filter (fun key => key.kind ≠ .paragraph) ↔ key ∈ keys := by
    intro keys
    rw [List.mem_filter, decide_eq_true other]
    exact and_iff_left rfl
  rw [← filtered, without.others, filtered]

theorem report (without : WithoutTransfers plain full) (diagnostic : Diagnostic) :
    WithoutTransfers (plain.report diagnostic) (full.report diagnostic) where
  definitions := without.definitions
  usages := without.usages
  paragraphs := without.paragraphs
  others := without.others
  diagnostics := congrArg (· ++ [diagnostic]) without.diagnostics

theorem merge {another right : Context} (first : WithoutTransfers plain full)
    (second : WithoutTransfers another right) :
    WithoutTransfers (plain.merge another) (full.merge right) where
  definitions := fun key location => by
    rw [knows_merge, knows_merge, first.definitions, second.definitions]
  usages := fun key location => by
    rw [knows_merge, knows_merge, first.usages, second.usages, or_and_right]
  paragraphs := fun name => by
    rw [knows_merge, first.paragraphs, second.paragraphs, defines_merge]
  others := by
    have commutes : ∀ keys others : List SymbolKey,
        ((keys ++ others.filter fun key => key ∉ keys).filter fun key => key.kind ≠ .paragraph) =
          (keys.filter fun key => key.kind ≠ .paragraph) ++
            ((others.filter fun key => key.kind ≠ .paragraph).filter fun key => key ∉ keys) := by
      intro keys others
      rw [List.filter_append, List.filter_filter, List.filter_filter]
      exact congrArg (_ ++ ·) (List.filter_congr fun key _ => Bool.and_comm _ _)
    rw [keys_merge, keys_merge, commutes, commutes, first.others, second.others]
    refine congrArg (_ ++ ·) (List.filter_congr fun key member => ?_)
    have other := of_decide_eq_true (List.mem_filter.mp member).2
    rw [decide_eq_decide, first.mentioned other]
  diagnostics := congrArg₂ (· ++ ·) first.diagnostics second.diagnostics

theorem record (without : WithoutTransfers plain full) (key : SymbolKey) (added : Occurrences)
    (told : key.kind = .paragraph → ∃ location, location ∈ added.definitions)
    (unused : key.kind = .paragraph → added.usages = .empty) :
    WithoutTransfers (plain.record key fun found => found.union added)
      (full.record key fun found => found.union added) where
  definitions := fun other location => by
    rw [knows_record_union, knows_record_union, without.definitions]
  usages := fun other location => by
    rw [knows_record_union, knows_record_union, without.usages, or_and_right]
    refine or_congr_right (and_iff_left_of_imp ?_).symm
    rintro ⟨rfl, member⟩ paragraph
    rw [unused paragraph] at member
    cases member
  paragraphs := fun name => by
    unfold Defines
    simp only [knows_record_union, exists_or]
    rw [without.paragraphs]
    refine or_congr_right ⟨?_, fun ⟨_, same, _⟩ => same⟩
    rintro rfl
    obtain ⟨location, member⟩ := told rfl
    exact ⟨location, rfl, member⟩
  others := by
    rw [keys_record, keys_record, apply_ite (List.filter _), apply_ite (List.filter _), List.filter_append,
      List.filter_append, without.others]
    by_cases paragraph : key.kind = .paragraph
    · simp [paragraph]
    · simp only [without.mentioned paragraph]
  diagnostics := without.diagnostics

theorem transfer (without : WithoutTransfers plain full) (written : List Char)
    (location : Location) :
    WithoutTransfers plain (full.use .paragraph written location) where
  definitions := fun key place => by
    rw [without.definitions, knows_use_bears]
    exact (or_iff_left fun told => List.not_mem_nil told.2).symm
  usages := fun key place => by
    rw [without.usages, knows_use_bears, or_and_right]
    exact (or_iff_left fun ⟨told, other⟩ => other (congrArg SymbolKey.kind told.1)).symm
  paragraphs := fun name => by
    rw [without.paragraphs, defines_use]
  others := by
    have keys : (full.use .paragraph written location).symbols.keys = _ :=
      full.keys_record (.ofWritten .paragraph written) _
    rw [without.others, keys, apply_ite (List.filter _), List.filter_append]
    simp [SymbolKey.ofWritten]
  diagnostics := without.diagnostics

end WithoutTransfers

end Context

def Diagnostic.isLevelReport (diagnostic : Diagnostic) : Bool :=
  decide (diagnostic.code = some Code.invalidLevel)

namespace Parse

/-! ### Findings that are left out -/

def Finding.isTransfer : Finding → Bool
  | usage .paragraph _ _ => true
  | _ => false

def Finding.isLevelReport : Finding → Bool
  | problem diagnostic => diagnostic.isLevelReport
  | _ => false

theorem CopyStatement.finding_cases (uri : String) (copy : Lexeme) (rest : List Lexeme) :
    (∃ reference, finding uri copy rest = .copy reference) ∨
      ∃ location message, finding uri copy rest =
        .problem (.error location Diagnostic.Code.missingCopybookName message) := by
  unfold finding
  split
  · exact Or.inr ⟨_, _, rfl⟩
  · split
    · exact Or.inl ⟨_, rfl⟩
    · exact Or.inr ⟨_, _, rfl⟩

theorem walk_filter {setting other : Setting} (uri : setting.uri = other.uri)
    {keep : Finding → Bool} (unknown : ∀ lexeme, keep (unexpected other.uri lexeme) = true)
    (copies : ∀ reference, keep (.copy reference) = true)
    (faults : ∀ location message,
      keep (.problem (.error location Diagnostic.Code.missingCopybookName message)) = true)
    (here : ∀ progress lexeme rest, findingsAt setting progress lexeme rest =
      (findingsAt other progress lexeme rest).filter keep)
    (progress : Progress) (lexemes : List Lexeme) :
    walk setting progress lexemes = (walk other progress lexemes).filter keep := by
  have statements : ∀ copy rest, keep (CopyStatement.finding other.uri copy rest) = true := by
    intro copy rest
    rcases CopyStatement.finding_cases other.uri copy rest with
      ⟨reference, found⟩ | ⟨location, message, found⟩
    · rw [found]
      exact copies reference
    · rw [found]
      exact faults location message
  induction progress, lexemes using walk.induct with
  | case1 progress => rw [walk, walk, List.filter_nil]
  | case2 progress lexeme rest unrecognized ih =>
      rw [walk, walk, if_pos unrecognized, if_pos unrecognized,
        List.filter_cons_of_pos (unknown lexeme), ih, uri]
  | case3 progress lexeme rest recognized copy ih =>
      rw [walk, walk, if_neg recognized, if_neg recognized, if_pos copy, if_pos copy,
        List.filter_cons_of_pos (statements lexeme rest), ih, uri]
  | case4 progress lexeme rest recognized other ih =>
      rw [walk, walk, if_neg recognized, if_neg recognized, if_neg other, if_neg other,
        List.filter_append, ih, here]

section Options

variable (uri : String) (format : Source.Format)

/-- Without usages, no sentence is read in another way. -/
theorem Sentence.filter_isTransfer (setting : Setting) (inProcedure : Bool) (first : Lexeme)
    (rest : List Lexeme) :
    (findings setting inProcedure first rest).filter (fun finding => !finding.isTransfer) =
      findings setting inProcedure first rest := by
  rw [List.filter_eq_self]
  intro finding member
  rcases mem_findings_cases member with ⟨_, _, _, _, rfl⟩ | ⟨_, rfl⟩
  · rfl
  · rfl

theorem walk_withoutUsages (strictLevels : Bool) (progress : Progress) (lexemes : List Lexeme) :
    walk ⟨uri, format, ⟨false, strictLevels⟩⟩ progress lexemes =
      (walk ⟨uri, format, ⟨true, strictLevels⟩⟩ progress lexemes).filter
        fun finding => !finding.isTransfer := by
  apply walk_filter
  · rfl
  · exact fun lexeme => rfl
  · exact fun reference => rfl
  · exact fun location message => rfl
  · intro progress lexeme rest
    have transfers : (Transfer.findings uri lexeme rest).filter
        (fun finding => !finding.isTransfer) = [] := by
      rw [List.filter_eq_nil_iff]
      intro finding member
      obtain ⟨target, _, rfl⟩ := List.mem_map.mp member
      exact Bool.false_ne_true
    unfold findingsAt
    simp only [if_true, Bool.false_eq_true, if_false, List.filter_append, transfers]
    split
    · rw [Sentence.filter_isTransfer]
      rfl
    · rfl

theorem Sentence.findings_lax (collectUsages inProcedure : Bool) (first : Lexeme)
    (rest : List Lexeme) :
    findings ⟨uri, format, ⟨collectUsages, false⟩⟩ inProcedure first rest =
      (findings ⟨uri, format, ⟨collectUsages, true⟩⟩ inProcedure first rest).filter
        fun finding => !finding.isLevelReport := by
  unfold findings
  cases level? inProcedure first with
  | some level =>
      simp only [dataEntry]
      by_cases valid : isValidLevel level
      · rw [if_pos valid, if_pos valid]
        split
        · split <;> rfl
        · rfl
      · rw [if_neg valid, if_neg valid]
        rfl
  | none =>
      simp only [procedureName]
      repeat' split
      all_goals rfl

theorem walk_lax (collectUsages : Bool) (progress : Progress) (lexemes : List Lexeme) :
    walk ⟨uri, format, ⟨collectUsages, false⟩⟩ progress lexemes =
      (walk ⟨uri, format, ⟨collectUsages, true⟩⟩ progress lexemes).filter
        fun finding => !finding.isLevelReport := by
  apply walk_filter
  · rfl
  · exact fun lexeme => rfl
  · exact fun reference => rfl
  · exact fun location message => rfl
  · intro progress lexeme rest
    have transfers : (Transfer.findings uri lexeme rest).filter
        (fun finding => !finding.isLevelReport) = Transfer.findings uri lexeme rest := by
      rw [List.filter_eq_self]
      intro finding member
      obtain ⟨target, _, rfl⟩ := List.mem_map.mp member
      rfl
    unfold findingsAt
    rw [List.filter_append, apply_ite (List.filter _), apply_ite (List.filter _), transfers,
      ← Sentence.findings_lax]
    rfl

end Options

/-! ### Documents -/

theorem references_filter {keep : Finding → Bool}
    (copies : ∀ reference, keep (.copy reference) = true) (findings : List Finding) :
    (ParsedDocument.ofFindings (findings.filter keep)).references =
      (ParsedDocument.ofFindings findings).references := by
  unfold ParsedDocument.ofFindings
  rw [List.filterMap_filter]
  refine List.filterMap_congr fun finding _ => ?_
  cases finding with
  | copy reference => rw [if_pos (copies reference)]
  | problem diagnostic => exact ite_self none
  | definition kind written location => exact ite_self none
  | usage kind written location => exact ite_self none

theorem ofFindings_withoutTransfers (findings : List Finding) :
    (ParsedDocument.ofFindings (findings.filter fun finding =>
      !finding.isTransfer)).context.WithoutTransfers
        (ParsedDocument.ofFindings findings).context := by
  have recorded : ∀ plain full : Context, plain.WithoutTransfers full →
      ((findings.filter fun finding => !finding.isTransfer).foldl Finding.record
        plain).WithoutTransfers (findings.foldl Finding.record full) := by
    induction findings with
    | nil => exact fun _ _ without => without
    | cons finding rest ih =>
        intro plain full without
        rw [List.filter_cons, List.foldl_cons]
        cases finding with
        | problem diagnostic => exact ih _ _ (without.report diagnostic)
        | definition kind written location =>
            exact ih _ _ (without.record (.ofWritten kind written)
              (Occurrences.none.define location)
              (fun _ => ⟨location, OrderedSet.mem_insert_self _ _⟩) fun _ => rfl)
        | usage kind written location =>
            by_cases paragraph : kind = .paragraph
            · subst paragraph
              exact ih _ _ (without.transfer written location)
            · have kept : (!(Finding.usage kind written location).isTransfer) = true := by
                cases kind <;> first | rfl | exact absurd rfl paragraph
              rw [if_pos kept]
              exact ih _ _ (without.record (.ofWritten kind written)
                (Occurrences.none.use location) (fun same => absurd same paragraph)
                fun same => absurd same paragraph)
        | copy reference =>
            exact ih _ _ (without.record (.ofWritten .copybook reference.name.text)
              (Occurrences.none.use reference.location) nofun nofun)
  exact recorded _ _ (.ofDiagnostics [])

theorem ofFindings_lax (findings : List Finding) :
    Context.AgreeOn (fun diagnostic => !diagnostic.isLevelReport)
      (ParsedDocument.ofFindings (findings.filter fun finding => !finding.isLevelReport)).context
      (ParsedDocument.ofFindings findings).context := by
  have recorded : ∀ lax strict : Context,
      lax.AgreeOn (fun diagnostic => !diagnostic.isLevelReport) strict →
        ((findings.filter fun finding => !finding.isLevelReport).foldl Finding.record
          lax).AgreeOn (fun diagnostic => !diagnostic.isLevelReport)
            (findings.foldl Finding.record strict) := by
    induction findings with
    | nil => exact fun _ _ agree => agree
    | cons finding rest ih =>
        intro lax strict agree
        rw [List.filter_cons, List.foldl_cons]
        cases finding with
        | problem diagnostic =>
            cases level : diagnostic.isLevelReport with
            | true =>
                rw [show (!(Finding.problem diagnostic).isLevelReport) = false from
                  congrArg not level]
                exact ih _ _ (agree.report_right (congrArg not level))
            | false =>
                rw [show (!(Finding.problem diagnostic).isLevelReport) = true from
                  congrArg not level]
                exact ih _ _ (agree.report diagnostic)
        | definition kind written location => exact ih _ _ (agree.define kind written location)
        | usage kind written location => exact ih _ _ (agree.use kind written location)
        | copy reference =>
            exact ih _ _ (agree.use .copybook reference.name.text reference.location)
  exact recorded _ _ ⟨rfl, rfl⟩

/-- Under the two options, a text has the same references, and contexts that are related. -/
def ParsedLike (Like : Context → Context → Prop) (format : Source.Format)
    (options other : Options) : Prop :=
  ∀ uri text,
    (document uri text format options).references = (document uri text format other).references ∧
      Like (document uri text format options).context (document uri text format other).context

theorem parsedLike_withoutUsages (format : Source.Format) (strictLevels : Bool) :
    ParsedLike Context.WithoutTransfers format ⟨false, strictLevels⟩ ⟨true, strictLevels⟩ := by
  intro uri text
  unfold document findingsOf
  rw [walk_withoutUsages]
  exact ⟨references_filter (fun _ => rfl) _, ofFindings_withoutTransfers _⟩

theorem parsedLike_lax (format : Source.Format) (collectUsages : Bool) :
    ParsedLike (Context.AgreeOn fun diagnostic => !diagnostic.isLevelReport) format
      ⟨collectUsages, false⟩ ⟨collectUsages, true⟩ := by
  intro uri text
  unfold document findingsOf
  rw [walk_lax]
  exact ⟨references_filter (fun _ => rfl) _, ofFindings_lax _⟩

end Parse

end CobolAnalysis
