/-
The two ways into an analysis.

A copybook can be asked for by its name, or by a document that is one COPY statement and nothing
else. The two analyses take the same course: the document adds a usage of the copybook, reports a
failure of the copybook at another place, and repeats failures further below at its COPY
statement. In all else they agree.
-/

import CobolAnalysis.Proofs.Analysis.Correspondence
import CobolAnalysis.Proofs.Analysis.SettledOnce
import CobolAnalysis.Proofs.Parse.Walk
import CobolAnalysis.Proofs.Printed.Statements

namespace CobolAnalysis

open Parse (Reference)
open Provider (Memory)
open Scenario.Bench (Subject)

/-! ### Reports that are repeated at the root document -/

/-- The failure of a reference in an included copybook, repeated at a COPY statement of the root
document: its last related place is that of the reference. -/
def Diagnostic.isSurfaced (diagnostic : Diagnostic) : Bool :=
  diagnostic.isResolution &&
    diagnostic.related.any fun related => "COPY ".toList.isPrefixOf related.message.toList

namespace Refusal

theorem isSurfaced_diagnostic (reference : Reference) (refusal : Refusal) :
    (refusal.diagnostic reference).isSurfaced = false := by
  have other : "COPY ".toList.isPrefixOf ("copybook " ++ reference.name.display).toList = false := by
    rw [String.toList_append]
    rfl
  unfold Diagnostic.isSurfaced
  rw [Bool.and_eq_false_iff]
  right
  cases refusal with
  | cancelled => rfl
  | circular path => exact (congrArg (· || false) other).trans rfl
  | tooDeep limit => exact (congrArg (· || false) other).trans rfl
  | notFound => exact (congrArg (· || false) other).trans rfl
  | timedOut timeout => exact (congrArg (· || false) other).trans rfl
  | broken error => exact (congrArg (· || false) other).trans rfl

theorem isSurfaced_surfaced (reference : Reference) (refusal : Refusal) (copy : Location) :
    (surfaced reference copy (refusal.diagnostic reference)).isSurfaced = true := by
  have resolution : (refusal.diagnostic reference).isResolution = true := by
    rw [Diagnostic.isResolution_of_code (refusal.code_diagnostic reference)]
    exact List.contains_iff_mem.mpr refusal.code_mem_resolutionCodes
  have marked : "COPY ".toList.isPrefixOf
      ("COPY " ++ reference.name.display ++ " in an included copybook").toList = true := by
    rw [String.toList_append, String.toList_append]
    rfl
  unfold Diagnostic.isSurfaced surfaced Diagnostic.withRelated
  rw [Bool.and_eq_true, List.any_append, Bool.or_eq_true]
  refine ⟨resolution, Or.inr ?_⟩
  rw [List.any_cons, marked]
  rfl

theorem unsurfaced_reports (site : Site) (reference : Reference) (refusal : Refusal) :
    ((refusal.reports site reference).filter fun diagnostic => !diagnostic.isSurfaced) =
      [refusal.diagnostic reference] := by
  unfold reports
  rw [List.filter_cons_of_pos (by rw [isSurfaced_diagnostic]; rfl)]
  cases site.copy? with
  | none => rfl
  | some copy =>
      refine congrArg (_ :: ·) (List.filter_eq_nil_iff.mpr ?_)
      intro diagnostic member
      rw [List.mem_singleton.mp member, isSurfaced_surfaced]
      decide

theorem diagnostic_moved (name : LogicalName) (location other : Location) (refusal : Refusal) :
    refusal.diagnostic ⟨name, location⟩ =
      { refusal.diagnostic ⟨name, other⟩ with location := location } := by
  cases refusal <;> rfl

end Refusal

theorem Inclusions.contexts_agree (tree : Inclusions) (site other : Site) :
    List.Forall₂ (Context.AgreeOn fun diagnostic => !diagnostic.isSurfaced)
      (tree.contexts site) (tree.contexts other) := by
  induction tree generalizing site other with
  | none => exact .nil
  | refused reference refusal rest ih =>
      refine .cons ⟨rfl, ?_⟩ (ih site other)
      exact (refusal.unsurfaced_reports site reference).trans
        (refusal.unsurfaced_reports other reference).symm
  | «repeated» reference rest ih => exact ih site other
  | included reference uri own below rest ihBelow ih =>
      have inside := (Context.agreeOn_congruence _).merges
        (ihBelow (site.below reference) (other.below reference)) (⟨rfl, rfl⟩ : own.AgreeOn _ own)
      exact .cons (inside.define _ _ _) (ih site other)

/-! ### One reference -/

theorem Shelf.settle_cases (shelf : Shelf) (name : LogicalName) :
    (∃ refusal, ∀ location,
        shelf.settle ⟨name, location⟩ = .refused ⟨name, location⟩ refusal) ∨
      ∃ text, ∀ location,
        shelf.settle ⟨name, location⟩ = .resolved ⟨name, location⟩ text name.uri := by
  unfold settle
  simp only
  split
  · exact Or.inl ⟨_, fun _ => rfl⟩
  · cases shelf.stock.copybooks.get? name with
    | none => exact Or.inl ⟨.notFound, fun _ => rfl⟩
    | some text => exact Or.inr ⟨text, fun _ => rfl⟩

theorem Shelf.survey_singleton (shelf : Shelf) (depth : Nat) (name : LogicalName) :
    (∃ refusal ledger, ∀ location, shelf.survey depth [] [⟨name, location⟩] (.start ()) =
        (.refused ⟨name, location⟩ refusal .none, ledger)) ∨
      ∃ uri own below ledger, ∀ location, shelf.survey depth [] [⟨name, location⟩] (.start ()) =
        (.included ⟨name, location⟩ uri own below .none, ledger) := by
  cases depth with
  | zero => exact Or.inl ⟨.tooDeep shelf.config.maxDepth, .start (), fun _ => rfl⟩
  | succ deeper =>
      let ledger : Ledger Unit := ((Ledger.start ()).claim name).asked ⟨[], name⟩ ()
      have asked : ∀ location, shelf.settleAll [] [⟨name, location⟩] (.start ()) =
          ([shelf.settle ⟨name, location⟩], ledger) := by
        intro location
        obtain ⟨inside, _⟩ | ⟨_, ⟨_, claimed⟩, _⟩ | ⟨_, _, settled⟩ :=
          shelf.settleAll_cases [] ⟨name, location⟩ [] (.start ())
        · cases inside
        · cases claimed
        · exact settled
      unfold survey
      simp only [asked]
      rcases shelf.settle_cases name with ⟨refusal, settled⟩ | ⟨text, settled⟩
      · simp only [settled]
        exact Or.inl ⟨refusal, ledger, fun _ => rfl⟩
      · simp only [settled, graft]
        cases shelf.reading.document name.uri text with
        | error error => exact Or.inl ⟨.broken error, ledger, fun _ => rfl⟩
        | ok document => exact Or.inr ⟨name.uri, document.context, _, _, fun _ => rfl⟩

/-- Either the reference fails, and this is reported where it stands, or it brings in the same but for
reports that are repeated. -/
theorem Shelf.contexts_singleton (shelf : Shelf) (depth : Nat) (name : LogicalName)
    (location : Location) :
    let asked := shelf.survey depth [] [Analyzer.requestOf name] (.start ())
    let opened := shelf.survey depth [] [⟨name, location⟩] (.start ())
    asked.2 = opened.2 ∧ ∃ first second : Context,
      asked.1.contexts .request = [first] ∧ opened.1.contexts .root = [second] ∧
        (first.AgreeOn (fun diagnostic => !diagnostic.isSurfaced) second ∨
          ∃ refusal : Refusal, first = .ofDiagnostics [refusal.diagnostic (Analyzer.requestOf name)] ∧
            second = .ofDiagnostics [refusal.diagnostic ⟨name, location⟩]) := by
  unfold Analyzer.requestOf
  rcases shelf.survey_singleton depth name with
    ⟨refusal, ledger, found⟩ | ⟨uri, own, below, ledger, found⟩
  · simp only [found]
    exact ⟨trivial, _, _, rfl, rfl, Or.inr ⟨refusal, rfl, rfl⟩⟩
  · simp only [found]
    have inside := (Context.agreeOn_congruence fun diagnostic => !diagnostic.isSurfaced).merges
      (below.contexts_agree .root (.nested location)) (⟨rfl, rfl⟩ : own.AgreeOn _ own)
    exact ⟨trivial, _, _, rfl, rfl, Or.inl (inside.define .copybook name.text (.documentStart uri))⟩

/-! ### Documents that are one COPY statement -/

/-- Preprocessed without reports, the text is the word COPY, the operand, which names the copybook,
and a period. -/
structure AsksOnly (config : Config) (format : Source.Format) (uri : String) (text : List Char)
    (operand : Lexeme) (name : LogicalName) : Prop where
  statement : ∃ written copy period,
    Source.preprocess config.stage uri format text = .ok (.clean written) ∧
      Lexeme.scan written = [copy, operand, period] ∧ copy.isWord "COPY" = true ∧
        period.isSeparator = true
  names : (operand.isName || operand.kind == .literal) = true
  parsed : LogicalName.parse operand.text = .ok name

/-- A text in which one COPY statement of a name alone is laid out asks for that copybook only. -/
theorem asksOnly_of_laidOut (config : Config) {format : Source.Format} (uri : String)
    {text : List Char} (readable : ∀ raw ∈ Text.lines text, '\x00' ∉ raw)
    (fits : format = .fixed → ∀ raw ∈ Text.lines text, raw.length ≤ Source.rightMargin)
    {copy name period : Printed.Placed} (isCopy : copy.token.IsKeyword "COPY")
    (names : name.token.Names) (ends : period.token = .period)
    (laidOut : Printed.LaidOut format 0 (Text.lines text) [copy, name, period]) :
    ∃ operand : Lexeme,
      operand.location uri = ⟨uri, .onLine name.line name.column name.token.text.length⟩ ∧
        AsksOnly config format uri text operand ⟨Text.upper name.token.name⟩ := by
  obtain ⟨written, preprocessed, are⟩ :=
    laidOut.preprocess_fitting readable fits config.debugLinesAsCode uri
  obtain ⟨first, others, isFirst, follow, scanned⟩ := List.forall₂_cons_right_iff.mp are
  obtain ⟨operand, more, isOperand, ending, rfl⟩ := List.forall₂_cons_right_iff.mp follow
  obtain ⟨last, after, isLast, nothing, rfl⟩ := List.forall₂_cons_right_iff.mp ending
  cases nothing
  have wellFormed : name.token.WellFormed :=
    laidOut.wellFormed name (List.mem_cons_of_mem copy List.mem_cons_self)
  refine ⟨operand, ?_, ⟨written, first, last, preprocessed, scanned, ?_, ?_⟩, ?_, ?_⟩
  · unfold Lexeme.location
    rw [isOperand.line, isOperand.column, isOperand.text]
  · exact isFirst.isWord isCopy (by decide)
  · exact isLast.isSeparator ends
  · unfold Lexeme.isName
    rw [isOperand.kind]
    rcases Printed.Token.kind_of_names names with kind | kind | kind <;> rw [kind] <;> rfl
  · rw [isOperand.text]
    exact Printed.Token.parse_text wellFormed names

theorem AsksOnly.reads {config : Config} {format : Source.Format} {uri : String}
    {text : List Char} {operand : Lexeme} {name : LogicalName}
    (asks : AsksOnly config format uri text operand name) (options : Parse.Options) :
    (Reading.standard config format options).document uri text =
      .ok ⟨Context.empty.use .copybook name.text (operand.location uri),
        [⟨name, operand.location uri⟩]⟩ := by
  obtain ⟨written, copy, period, preprocessed, scanned, isCopy, ends⟩ := asks.statement
  have found : Parse.findingsOf ⟨uri, format, options⟩ written =
      [.copy ⟨name, operand.location uri⟩] := by
    unfold Parse.findingsOf
    rw [scanned, Parse.walk_threeLexemes _ _ isCopy asks.names asks.parsed ends, Parse.walk]
  have parsed : Parse.document uri written format options =
      ⟨Context.empty.use .copybook name.text (operand.location uri),
        [⟨name, operand.location uri⟩]⟩ := by
    unfold Parse.document
    rw [found]
    rfl
  unfold Reading.document Reading.standard
  simp only [preprocessed, Parse.standard, Diagnosed.clean, parsed]
  exact congrArg (fun own => Except.ok (Parse.ParsedDocument.mk own _)) (Context.empty_merge _)

/-- Asked for by name and by a document that is one COPY statement, a copybook is analyzed with the
same requests in the same order. The document's result has the symbols of the copybook's, and next
to them the one usage. The problems are the same but for those that are repeated at a COPY statement
of the root document; if the copybook itself cannot be had, this is the only problem, and it stands
at the name in the COPY statement instead of the start of the copybook. -/
theorem entry_points_agree {σ : Type} (config : Config) (format : Source.Format)
    (options : Parse.Options) (stock : Memory) (venue : Venue σ) (bus : Bus (Board σ))
    (attached : venue.Attached stock [] bus) (uri : String) (text : List Char) (operand : Lexeme)
    (name : LogicalName) (asks : AsksOnly config format uri text operand name) :
    ∃ least, ∀ limit, least ≤ limit → ∃ asked opened,
      let analyzer := (Shelf.standard config format options stock).analyzer venue limit
      let usage := Context.empty.use .copybook name.text (operand.location uri)
      analyzer.copybook name bus = some asked ∧
      analyzer.document uri text bus = some opened ∧
      ((analyzer.journaled.copybook name (bus, [])).map fun watched => watched.world.2) =
        some (asked.requests.map Request.name) ∧
      ((analyzer.journaled.document uri text (bus, [])).map fun watched => watched.world.2) =
        some (opened.requests.map Request.name) ∧
      asked.requests = opened.requests ∧
      opened.context.symbols = (usage.merge asked.context).symbols ∧
      ((asked.context.diagnostics.filter fun diagnostic => !diagnostic.isSurfaced) =
          (opened.context.diagnostics.filter fun diagnostic => !diagnostic.isSurfaced) ∨
        ∃ failure : Diagnostic, failure.location = .documentStart name.uri ∧
          asked.context.diagnostics = [failure] ∧
          opened.context.diagnostics = [{ failure with location := operand.location uri }]) := by
  let shelf := Shelf.standard config format options stock
  obtain ⟨ledger, first, second, inAsked, inOpened, agree⟩ :=
    shelf.contexts_singleton shelf.config.maxDepth name (operand.location uri)
  obtain ⟨least, rest, answered⟩ := shelf.copybook_mirrors attached name
  obtain ⟨enough, remaining, mirrors, _⟩ := shelf.document_mirrors attached uri text
  have read : shelf.reading.document uri text =
      .ok ⟨Context.empty.use .copybook name.text (operand.location uri),
        [⟨name, operand.location uri⟩]⟩ := asks.reads options
  refine ⟨max least enough, fun limit atLeast => ?_⟩
  have ran := answered limit (Nat.le_trans (Nat.le_max_left _ _) atLeast)
  have followed := mirrors limit (Nat.le_trans (Nat.le_max_right _ _) atLeast)
  have alone : Context.mergeAll [first] = first := Context.empty_merge first
  simp only [Shelf.document, read, inOpened] at followed
  rw [inAsked, alone] at ran
  refine ⟨_, _, ran, followed, ?_, ?_, congrArg Ledger.requests ledger, ?_, ?_⟩
  · have journaled := (shelf.analyzer venue limit).run_journaled (.copybook name) bus
    simp only [Analyzer.run] at journaled
    rw [journaled, ran]
    rfl
  · rw [Analyzer.document_journaled, followed]
    rfl
  · have symbols : first.symbols = second.symbols := by
      rcases agree with agree | ⟨refusal, rfl, rfl⟩
      · exact agree.symbols
      · rfl
    exact Context.symbols_merge_congr rfl symbols.symm
  · rcases agree with agree | ⟨refusal, rfl, rfl⟩
    · exact Or.inl agree.diagnostics
    · refine Or.inr ⟨_, refusal.location_diagnostic (Analyzer.requestOf name), rfl, ?_⟩
      exact congrArg (fun diagnostic => [diagnostic])
        (refusal.diagnostic_moved name (operand.location uri) (.documentStart name.uri))

section Sample

open Scenario

/-- The outer copybook asks for the inner one and for itself, and the inner one for a silent one, so
that two failures come again at the document's COPY statement. -/
theorem sample_entry_points_agree :
    ∃ operand, AsksOnly .standard .fixed "root" "       COPY A.".toList operand Sample.outer ∧
      ∃ least, ∀ limit, least ≤ limit → ∃ asked opened,
        let analyzer := (Shelf.standard .standard .fixed ⟨true, true⟩ Sample.stock).analyzer
          (Bench.venue Sample.script) limit
        analyzer.copybook Sample.outer (Bench.withMemory Sample.script Sample.stock) =
            some asked ∧
          analyzer.document "root" "       COPY A.".toList
            (Bench.withMemory Sample.script Sample.stock) = some opened ∧
          asked.requests = opened.requests ∧
          opened.requests.map Request.name = [Sample.outer, Sample.inner, Sample.silent] ∧
          opened.context.symbols = ((Context.empty.use .copybook Sample.outer.text
            (operand.location "root")).merge asked.context).symbols ∧
          opened.context.definedNames .dataItem = ["ITEM-B".toList] ∧
          asked.context.diagnostics.map (fun diagnostic => diagnostic.code) =
            [some Diagnostic.Code.copybookTimedOut, some Diagnostic.Code.copybookTimedOut,
              some Diagnostic.Code.circularCopybook] := by
  let shelf := Shelf.standard .standard .fixed ⟨true, true⟩ Sample.stock
  let operand : Lexeme := ⟨.word, ['A'], 0, 12, false⟩
  have asks : AsksOnly .standard .fixed "root" "       COPY A.".toList operand Sample.outer :=
    ⟨⟨"       COPY A.".toList, ⟨.word, "COPY".toList, 0, 7, true⟩, ⟨.period, ['.'], 0, 13, true⟩,
      by decide +kernel, by decide +kernel, by decide, by decide⟩, by decide, by decide⟩
  have attached := Sample.attached
  obtain ⟨first, agree⟩ := entry_points_agree .standard .fixed ⟨true, true⟩ Sample.stock _ _
    attached "root" _ operand Sample.outer asks
  obtain ⟨second, _, answers⟩ := shelf.copybook_mirrors attached Sample.outer
  obtain ⟨third, evaluates⟩ := shelf.document_evaluates attached "root" "       COPY A.".toList
  refine ⟨operand, asks, max first (max second third), fun limit enough => ?_⟩
  obtain ⟨asked, opened, answered, read, _, _, requests, symbols, _⟩ := agree limit (by omega)
  have byName : asked.context = .mergeAll ((shelf.survey shelf.config.maxDepth []
      [Analyzer.requestOf Sample.outer] (.start ())).1.contexts .request) :=
    congrArg Outcome.context (Option.some.inj (answered.symm.trans (answers limit (by omega))))
  obtain ⟨context, followed⟩ := evaluates limit (by omega) opened read
  refine ⟨asked, opened, answered, read, requests, ?_, symbols, ?_, ?_⟩
  · rw [followed]
    decide +kernel
  · rw [context]
    decide +kernel
  · rw [byName]
    decide +kernel

end Sample

end CobolAnalysis
