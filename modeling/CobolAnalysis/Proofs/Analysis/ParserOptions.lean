/-
Analyses under different options of the parser.

Switching an option leaves every document with the references it has, so the analysis asks for
the same copybooks in the same order. Whether transfers of control are recorded shows in the
usages of paragraphs and nowhere else; whether level numbers are checked shows in the reports of
level numbers and nowhere else.
-/

import CobolAnalysis.Proofs.Analysis.Correspondence
import CobolAnalysis.Proofs.Analysis.Journal
import CobolAnalysis.Proofs.Analysis.Surfacing
import CobolAnalysis.Proofs.Parse.Options

namespace CobolAnalysis

open Provider (Memory)

/-! ### Texts that are parsed alike -/

theorem Context.withoutTransfers_congruence : Congruence WithoutTransfers where
  reports := WithoutTransfers.ofDiagnostics
  merge := WithoutTransfers.merge
  define := fun without kind written location =>
    without.record (.ofWritten kind written) (Occurrences.none.define location)
      (fun _ => ⟨location, OrderedSet.mem_insert_self _ _⟩) fun _ => rfl

section Standard

variable {Like : Context → Context → Prop} (config : Config) {format : Source.Format}
  {options other : Parse.Options}

theorem Reading.readsLike_of_parsed (congruence : Context.Congruence Like)
    (alike : Parse.ParsedLike Like format options other)
    (uri : String) (text : List Char) :
    ReadsLike Like ((standard config format options).document uri text)
      ((standard config format other).document uri text) := by
  unfold Reading.document Reading.standard
  simp only
  cases Source.preprocess config.stage uri format text with
  | error cause => exact .refused _
  | ok written =>
      obtain ⟨references, like⟩ := alike uri written.value
      simp only [Parse.standard]
      rw [← references]
      exact .read (congruence.merge (congruence.reports _) like) _

theorem Shelf.document_of_parsed (congruence : Context.Congruence Like)
    (alike : Parse.ParsedLike Like format options other)
    (stock : Memory) (uri : String) (text : List Char) :
    ((Shelf.standard config format options stock).document uri text).requests =
        ((Shelf.standard config format other stock).document uri text).requests ∧
      Like ((Shelf.standard config format options stock).document uri text).context
        ((Shelf.standard config format other stock).document uri text).context := by
  have reads := Reading.readsLike_of_parsed config congruence alike
  have corresponds : Corresponds Like (.standard config format options stock)
      (.standard config format other stock) := by
    refine ⟨rfl, fun _ => rfl, fun name => ?_⟩
    change Option.Rel _ (stock.copybooks.get? name) (stock.copybooks.get? name)
    cases stock.copybooks.get? name with
    | none => exact .none
    | some found => exact .some (reads name.uri found)
  exact corresponds.document congruence (reads uri text)

end Standard

/-! ### No reports of level numbers -/

theorem Reading.lax_reserves (config : Config) (format : Source.Format) (collectUsages : Bool) :
    (standard config format ⟨collectUsages, false⟩).Reserves Diagnostic.Code.invalidLevel := by
  intro uri text document read diagnostic reported same
  rcases standard_reports read reported with ⟨code, member, other⟩ | ⟨written, problem⟩
  · have apart : Diagnostic.Code.invalidLevel ∉ Diagnostic.lineCodes := by decide
    rw [same] at other
    exact apart (Option.some.inj other ▸ member)
  · unfold Parse.findingsOf at problem
    rw [Parse.walk_lax] at problem
    have kept := (List.mem_filter.mp problem).2
    simp [Parse.Finding.isLevelReport, Diagnostic.isLevelReport, same] at kept

theorem Analyzer.filter_lax {ω τ : Type} {config : Config} {format : Source.Format}
    {collectUsages : Bool} {exchange : Exchange ω τ} (subject : Scenario.Bench.Subject) {world : ω}
    {outcome : Outcome ω}
    (ran : run ⟨.standard config format ⟨collectUsages, false⟩, config, exchange⟩ subject world =
      some outcome) :
    (outcome.context.diagnostics.filter fun diagnostic => !diagnostic.isLevelReport) =
      outcome.context.diagnostics := by
  obtain ⟨tree, ledger, _, accounts, _, context⟩ := run_cases ran
  have reserved : ∀ code ∈ [Diagnostic.Code.invalidLevel],
      (Reading.standard config format ⟨collectUsages, false⟩).Reserves code := by
    intro code member
    rw [List.mem_singleton.mp member]
    exact Reading.lax_reserves config format collectUsages
  have noRefusal : ((tree.failures []).filter fun failure =>
      [Diagnostic.Code.invalidLevel].contains failure.refusal.code) = [] := by
    have apart : ∀ code ∈ Diagnostic.resolutionCodes,
        ¬[Diagnostic.Code.invalidLevel].contains code = true := by decide
    exact List.filter_eq_nil_iff.mpr fun failure _ =>
      apart _ failure.refusal.code_mem_resolutionCodes
  have reported := filter_outcome reserved (by decide) accounts
  rw [noRefusal, ← context, List.flatMap_nil] at reported
  rw [Diagnostic.among_singleton, List.filter_eq_nil_iff] at reported
  rw [List.filter_eq_self]
  intro diagnostic member
  rw [Bool.not_eq_true', Bool.eq_false_iff]
  exact reported diagnostic member

/-! ### Four analyses of one document -/

/-- Under all options of the parser, a document is analyzed with the same requests, in the same
order. Without usages, the result lacks the usages of paragraphs, and the paragraphs that are used
only; without checks of level numbers, it lacks the reports of level numbers. All else is the same. -/
theorem parser_options_orthogonal {σ : Type} (config : Config) (format : Source.Format)
    (stock : Memory) (venue : Venue σ) (bus : Bus (Board σ))
    (attached : venue.Attached stock [] bus) (uri : String) (text : List Char) :
    ∃ least, ∀ limit, least ≤ limit → ∃ outcome : Parse.Options → Outcome (Bus (Board σ)),
      (∀ options,
        let analyzer := (Shelf.standard config format options stock).analyzer venue limit
        analyzer.document uri text bus = some (outcome options) ∧
          ((analyzer.journaled.document uri text (bus, [])).map fun watched => watched.world.2) =
            some ((outcome options).requests.map Request.name)) ∧
      (∀ options other, (outcome options).requests = (outcome other).requests) ∧
      (∀ strictLevels, (outcome ⟨false, strictLevels⟩).context.WithoutTransfers
        (outcome ⟨true, strictLevels⟩).context) ∧
      (∀ collectUsages,
        (outcome ⟨collectUsages, false⟩).context.symbols =
            (outcome ⟨collectUsages, true⟩).context.symbols ∧
          (outcome ⟨collectUsages, false⟩).context.diagnostics =
            (outcome ⟨collectUsages, true⟩).context.diagnostics.filter fun diagnostic =>
              diagnostic.code ≠ some Diagnostic.Code.invalidLevel) := by
  have mirrors := fun options : Parse.Options =>
    (Shelf.standard config format options stock).document_mirrors attached uri text
  choose least rest ran _ using mirrors
  have usages := fun strictLevels => Shelf.document_of_parsed config
    Context.withoutTransfers_congruence (Parse.parsedLike_withoutUsages format strictLevels) stock
      uri text
  have levels := fun collectUsages => Shelf.document_of_parsed config
    (Context.agreeOn_congruence fun diagnostic => !diagnostic.isLevelReport)
      (Parse.parsedLike_lax format collectUsages) stock uri text
  refine ⟨max (max (least ⟨true, true⟩) (least ⟨true, false⟩))
    (max (least ⟨false, true⟩) (least ⟨false, false⟩)), fun limit atLeast => ?_⟩
  have enough : ∀ options, least options ≤ limit := by
    rintro ⟨collectUsages, strictLevels⟩
    cases collectUsages <;> cases strictLevels <;> omega
  refine ⟨_, fun options => ⟨ran options limit (enough options), ?_⟩, ?_,
    fun strictLevels => (usages strictLevels).2, fun collectUsages =>
      ⟨(levels collectUsages).2.symbols, ?_⟩⟩
  · rw [Analyzer.document_journaled, ran options limit (enough options)]
    rfl
  · have toFull : ∀ options : Parse.Options,
        ((Shelf.standard config format options stock).document uri text).requests =
          ((Shelf.standard config format ⟨true, true⟩ stock).document uri text).requests := by
      rintro ⟨collectUsages, strictLevels⟩
      cases collectUsages <;> cases strictLevels
      · exact (usages false).1.trans (levels true).1
      · exact (usages true).1
      · exact (levels true).1
      · rfl
    exact fun options other => (toFull options).trans (toFull other).symm
  · have noLevels := Analyzer.filter_lax (.document uri text)
      (ran ⟨collectUsages, false⟩ limit (enough _))
    refine noLevels.symm.trans ((levels collectUsages).2.diagnostics.trans ?_)
    exact List.filter_congr fun diagnostic _ => decide_not.symm

namespace Scenario.Switches

/-! ### A document to which both options matter

It performs a paragraph that it does not have. The document and its copybook have a level number
each that does not exist. -/

def items : LogicalName := ⟨"ITEMS".toList⟩

def stock : Memory where
  copybooks := .ofList [(items, "       50 LOST.".toList)]
  silent := []
  requests := 0

def text : List Char :=
  ("       51 GONE.\n       COPY ITEMS.\n       PROCEDURE DIVISION.\n" ++
    "       MAIN.\n           PERFORM TAIL.").toList

/-- The paragraph that is performed and nowhere defined. -/
def tail : SymbolKey := .ofWritten .paragraph "TAIL".toList

/-- The names asked for, whether the paragraph is known, and what is reported. -/
def shown {ω : Type} (outcome : Outcome ω) : List LogicalName × Bool × List (Option String) :=
  (outcome.requests.map Request.name, outcome.context.symbols.contains tail,
    outcome.context.diagnostics.map fun diagnostic => diagnostic.code)

end Scenario.Switches

open Scenario in
theorem sample_parser_options_orthogonal :
    ∃ least, ∀ limit, least ≤ limit →
      ∃ outcome : Parse.Options → Outcome (Bus (Board (Bench Memory))),
        (∀ options, ((Shelf.standard .standard .fixed options Switches.stock).analyzer
            (Bench.venue Script.empty) limit).document "root" Switches.text
              (Bench.withMemory Script.empty Switches.stock) = some (outcome options)) ∧
        (∀ options other, (outcome options).requests = (outcome other).requests) ∧
        (∀ options, Switches.shown (outcome options) =
          ([Switches.items], options.collectUsages, if options.strictLevels then
            [some Diagnostic.Code.invalidLevel, some Diagnostic.Code.invalidLevel]
          else [])) ∧
        (outcome ⟨false, true⟩).context.WithoutTransfers (outcome ⟨true, true⟩).context ∧
        (outcome ⟨true, false⟩).context.symbols = (outcome ⟨true, true⟩).context.symbols ∧
        (outcome ⟨true, false⟩).context.diagnostics =
          (outcome ⟨true, true⟩).context.diagnostics.filter fun diagnostic =>
            diagnostic.code ≠ some Diagnostic.Code.invalidLevel := by
  have evaluated : ∀ options, Switches.shown ((Shelf.standard .standard .fixed options
      Switches.stock).document "root" Switches.text) =
        ([Switches.items], options.collectUsages, if options.strictLevels then
          [some Diagnostic.Code.invalidLevel, some Diagnostic.Code.invalidLevel]
        else []) := by
    rintro ⟨collectUsages, strictLevels⟩
    cases collectUsages <;> cases strictLevels <;> decide +kernel
  have attached := Bench.attached_unscripted Switches.stock
  obtain ⟨least, analyzed⟩ := parser_options_orthogonal .standard .fixed Switches.stock _ _
    attached "root" Switches.text
  have settles := fun options : Parse.Options =>
    (Shelf.standard .standard .fixed options Switches.stock).document_evaluates attached "root"
      Switches.text
  choose enough evaluates using settles
  refine ⟨max least (max (max (enough ⟨true, true⟩) (enough ⟨true, false⟩))
    (max (enough ⟨false, true⟩) (enough ⟨false, false⟩))), fun limit within => ?_⟩
  obtain ⟨outcome, ran, requests, usages, levels⟩ := analyzed limit (by omega)
  have reached : ∀ options, enough options ≤ limit := by
    rintro ⟨collectUsages, strictLevels⟩
    cases collectUsages <;> cases strictLevels <;> omega
  refine ⟨outcome, fun options => (ran options).1, requests, fun options => ?_, usages true,
    levels true⟩
  obtain ⟨context, asked⟩ := evaluates options limit (reached options) _ (ran options).1
  unfold Switches.shown
  rw [context, asked]
  exact evaluated options

end CobolAnalysis
