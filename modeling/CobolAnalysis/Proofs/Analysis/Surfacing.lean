/-
How failures below COPY statements come to the root document.

Each reference that failed is reported where it stands. If that is not the root document,
the report comes a second time right after, at the COPY statement of the root document on
the way to it. No other report has a code of copybook resolution.
-/

import CobolAnalysis.Proofs.Analysis.Account
import CobolAnalysis.Proofs.Scenario.Bench

namespace CobolAnalysis

open Parse (Reference)
open Scenario.Bench (Subject)

namespace Diagnostic

def resolutionCodes : List String :=
  [Code.copybookNotFound, Code.copybookTimedOut, Code.copybookCancelled, Code.copybookBroken,
    Code.circularCopybook, Code.copybookTooDeep]

def isResolution (diagnostic : Diagnostic) : Bool :=
  diagnostic.code.any resolutionCodes.contains

def among (codes : List String) (diagnostic : Diagnostic) : Bool :=
  diagnostic.code.any codes.contains

theorem among_of_code {diagnostic : Diagnostic} {code : String}
    (same : diagnostic.code = some code) (codes : List String) :
    diagnostic.among codes = codes.contains code := by
  unfold among
  rw [same]
  rfl

theorem among_singleton (code : String) :
    among [code] = fun diagnostic => decide (diagnostic.code = some code) := by
  funext diagnostic
  unfold among
  cases diagnostic.code with
  | none => rfl
  | some other =>
      rw [Option.any_some, Bool.eq_iff_iff, List.contains_iff_mem, List.mem_singleton,
        decide_eq_true_iff, Option.some.injEq]

theorem isResolution_of_code {diagnostic : Diagnostic} {code : String}
    (same : diagnostic.code = some code) :
    diagnostic.isResolution = resolutionCodes.contains code :=
  among_of_code same resolutionCodes

theorem Ordinary.not_isResolution {diagnostic : Diagnostic} (ordinary : diagnostic.Ordinary) :
    diagnostic.isResolution = false := by
  obtain ⟨code, member, same⟩ := ordinary
  have apart : ∀ code ∈ ordinaryCodes, resolutionCodes.contains code = false := by decide
  rw [isResolution_of_code same]
  exact apart code member

end Diagnostic

/-- A reference that failed, and the references on the way to the document it stands in,
outermost first. -/
structure Failure where
  trail : List Reference
  reference : Reference
  refusal : Refusal

namespace Failure

/-- What is reported of a failure when `rootDepth` references lead to the root document. -/
def diagnostics (rootDepth : Nat) (failure : Failure) : List Diagnostic :=
  let own := failure.refusal.diagnostic failure.reference
  match failure.trail[rootDepth]? with
  | none => [own]
  | some copy =>
      [own, ⟨copy.location, own.severity, own.code, own.message,
        own.related ++ [⟨failure.reference.location,
          "COPY " ++ failure.reference.name.display ++ " in an included copybook"⟩]⟩]

end Failure

namespace Inclusions

def failures (trail : List Reference) : Inclusions → List Failure
  | none => []
  | refused reference refusal rest => ⟨trail, reference, refusal⟩ :: failures trail rest
  | repeated _ rest => failures trail rest
  | included reference _ _ below rest =>
      failures (trail ++ [reference]) below ++ failures trail rest

end Inclusions

namespace Site

/-- The site at the end of a trail of which `rootDepth` references lead to the root document. -/
def ofTrail (rootDepth : Nat) (trail : List Reference) : Site :=
  match trail[rootDepth]? with
  | some copy => nested copy.location
  | none => if trail.length < rootDepth then request else root

theorem copy?_ofTrail (rootDepth : Nat) (trail : List Reference) :
    (ofTrail rootDepth trail).copy? = trail[rootDepth]?.map Reference.location := by
  unfold ofTrail
  cases trail[rootDepth]? with
  | some copy => rfl
  | none =>
      by_cases outside : trail.length < rootDepth
      · rw [if_pos outside]
        rfl
      · rw [if_neg outside]
        rfl

theorem ofTrail_append {rootDepth : Nat} {trail : List Reference}
    (near : rootDepth ≤ trail.length + 1) (reference : Reference) :
    ofTrail rootDepth (trail ++ [reference]) = (ofTrail rootDepth trail).below reference := by
  have longer : (trail ++ [reference]).length = trail.length + 1 := by
    rw [List.length_append, List.length_singleton]
  unfold ofTrail
  rcases Nat.lt_trichotomy trail.length rootDepth with outside | atRoot | inside
  · have before : trail[rootDepth]? = none := List.getElem?_eq_none (by omega)
    have after : (trail ++ [reference])[rootDepth]? = none := List.getElem?_eq_none (by omega)
    rw [before, after]
    simp only
    rw [if_pos outside, if_neg (by omega)]
    rfl
  · have before : trail[rootDepth]? = none := List.getElem?_eq_none (by omega)
    have after : (trail ++ [reference])[rootDepth]? = some reference := by
      rw [← atRoot]
      exact List.getElem?_concat_length
    rw [before, after]
    simp only
    rw [if_neg (by omega)]
    rfl
  · rw [List.getElem?_append_left inside, List.getElem?_eq_getElem inside]
    rfl

end Site

/-! ### Diagnostics of what was brought in -/

namespace Context

theorem diagnostics_foldl_merge (contexts : List Context) (base : Context) :
    (contexts.foldl merge base).diagnostics =
      base.diagnostics ++ contexts.flatMap Context.diagnostics := by
  induction contexts generalizing base with
  | nil => exact (List.append_nil _).symm
  | cons context rest ih =>
      rw [List.foldl_cons, ih, List.flatMap_cons, ← List.append_assoc]
      rfl

end Context

theorem Inclusions.diagnostics_included (site : Site) (reference : Reference) (uri : String)
    (own : Context) (below rest : Inclusions) :
    (Inclusions.contexts site (.included reference uri own below rest)).flatMap
        Context.diagnostics =
      (own.diagnostics ++
        (below.contexts (site.below reference)).flatMap Context.diagnostics) ++
          (rest.contexts site).flatMap Context.diagnostics := by
  rw [← Context.diagnostics_foldl_merge]
  rfl

theorem Failure.diagnostics_eq_reports (rootDepth : Nat) (trail : List Reference)
    (reference : Reference) (refusal : Refusal) :
    Failure.diagnostics rootDepth ⟨trail, reference, refusal⟩ =
      refusal.reports (.ofTrail rootDepth trail) reference := by
  unfold Failure.diagnostics Refusal.reports
  rw [Site.copy?_ofTrail]
  cases trail[rootDepth]? with
  | none => rfl
  | some copy => rfl

theorem Refusal.code_diagnostic (reference : Reference) (refusal : Refusal) :
    (refusal.diagnostic reference).code = some refusal.code := by
  cases refusal with
  | circular path => rfl
  | tooDeep limit => rfl
  | cancelled => rfl
  | notFound => rfl
  | timedOut timeout => rfl
  | broken error => rfl

theorem Refusal.message_diagnostic (reference : Reference) (refusal : Refusal) :
    (refusal.diagnostic reference).message = refusal.message reference.name := by
  cases refusal with
  | circular path => rfl
  | tooDeep limit => rfl
  | cancelled => rfl
  | notFound => rfl
  | timedOut timeout => rfl
  | broken error => rfl

theorem Refusal.code_mem_resolutionCodes (refusal : Refusal) :
    refusal.code ∈ Diagnostic.resolutionCodes := by
  cases refusal with
  | circular path => simp [code, Diagnostic.resolutionCodes]
  | tooDeep limit => simp [code, Diagnostic.resolutionCodes]
  | cancelled => simp [code, Diagnostic.resolutionCodes]
  | notFound => simp [code, Diagnostic.resolutionCodes]
  | timedOut timeout => simp [code, Diagnostic.resolutionCodes]
  | broken error => simp [code, Diagnostic.resolutionCodes]

theorem Refusal.says_of_mem_reports {site : Site} {reference : Reference} {refusal : Refusal}
    {diagnostic : Diagnostic} (member : diagnostic ∈ refusal.reports site reference) :
    diagnostic.code = some refusal.code ∧
      diagnostic.message = refusal.message reference.name := by
  rcases List.mem_cons.mp member with same | repeated
  · rw [same]
    exact ⟨refusal.code_diagnostic reference, refusal.message_diagnostic reference⟩
  · obtain ⟨copy, _, same⟩ := Option.map_eq_some_iff.mp (Option.mem_toList.mp repeated)
    rw [← same]
    exact ⟨refusal.code_diagnostic reference, refusal.message_diagnostic reference⟩

theorem Refusal.filter_reports (codes : List String) (site : Site) (reference : Reference)
    (refusal : Refusal) :
    (refusal.reports site reference).filter (Diagnostic.among codes) =
      if codes.contains refusal.code then refusal.reports site reference else [] := by
  have same : ∀ diagnostic ∈ refusal.reports site reference,
      diagnostic.among codes = codes.contains refusal.code := fun diagnostic member =>
    Diagnostic.among_of_code (says_of_mem_reports member).1 codes
  by_cases present : codes.contains refusal.code = true
  · rw [if_pos present]
    exact List.filter_eq_self.mpr fun diagnostic member => (same diagnostic member).trans present
  · rw [if_neg present]
    exact List.filter_eq_nil_iff.mpr fun diagnostic member reported =>
      present ((same diagnostic member).symm.trans reported)

theorem Inclusions.diagnostics_infix {rootDepth : Nat} {trail : List Reference}
    (near : rootDepth ≤ trail.length + 1) (tree : Inclusions) {failure : Failure}
    (member : failure ∈ tree.failures trail) :
    failure.diagnostics rootDepth <:+:
      (tree.contexts (.ofTrail rootDepth trail)).flatMap Context.diagnostics := by
  induction tree generalizing trail with
  | none => exact absurd member List.not_mem_nil
  | refused reference refusal rest ih =>
      rcases List.mem_cons.mp member with here | later
      · rw [here, Failure.diagnostics_eq_reports]
        exact (List.prefix_append _ _).isInfix
      · exact (ih near later).trans (List.suffix_append _ _).isInfix
  | «repeated» reference rest ih => exact ih near member
  | included reference uri own below rest ihBelow ih =>
      rw [diagnostics_included, ← Site.ofTrail_append near]
      rcases List.mem_append.mp member with inside | later
      · have further : rootDepth ≤ (trail ++ [reference]).length + 1 := by
          rw [List.length_append]
          omega
        exact ((ihBelow further inside).trans (List.suffix_append _ _).isInfix).trans
          (List.prefix_append _ _).isInfix
      · exact (ih near later).trans (List.suffix_append _ _).isInfix

/-- No document that is read has anything of its own to report under the code. -/
def Reading.Reserves (reading : Reading) (code : String) : Prop :=
  ∀ uri text document, reading.document uri text = .ok document →
    ∀ diagnostic ∈ document.context.diagnostics, diagnostic.code ≠ some code

theorem Reading.standard_reserves (config : Config) (format : Source.Format)
    (options : Parse.Options) {code : String} (member : code ∈ Diagnostic.resolutionCodes) :
    (Reading.standard config format options).Reserves code := by
  intro uri text document read diagnostic reported same
  have ordinary := Reading.standard_ordinary config format options uri text document read
    diagnostic reported
  have other := ordinary.not_isResolution
  rw [Diagnostic.isResolution_of_code same, List.contains_iff_mem.mpr member] at other
  cases other

theorem Diagnostic.filter_among_eq_nil {codes : List String} {diagnostics : List Diagnostic}
    (others : ∀ code ∈ codes, ∀ diagnostic ∈ diagnostics, diagnostic.code ≠ some code) :
    diagnostics.filter (among codes) = [] := by
  apply List.filter_eq_nil_iff.mpr
  intro diagnostic member found
  obtain ⟨code, same, present⟩ := (Option.any_eq_true ..).mp found
  exact others code (List.contains_iff_mem.mp present) diagnostic member same

/-- Next to the reports of failures, nothing that is brought in has a reserved code. -/
theorem Accounts.filter_diagnostics {reading : Reading} {codes : List String}
    (reserved : ∀ code ∈ codes, reading.Reserves code) {config : Config}
    {chain : List LogicalName} {references : List Reference} {tree : Inclusions}
    (accounts : Accounts reading config chain references tree)
    {rootDepth : Nat} {trail : List Reference} (near : rootDepth ≤ trail.length + 1) :
    ((tree.contexts (.ofTrail rootDepth trail)).flatMap Context.diagnostics).filter
        (Diagnostic.among codes) =
      ((tree.failures trail).filter fun failure => codes.contains failure.refusal.code).flatMap
        (Failure.diagnostics rootDepth) := by
  induction accounts generalizing trail with
  | none chain => rfl
  | @refused chain references rest reference refusal warranted others ih =>
      have reported := refusal.filter_reports codes (.ofTrail rootDepth trail) reference
      rw [Inclusions.contexts, Inclusions.failures, List.flatMap_cons, List.filter_append, ih near,
        List.filter_cons]
      refine (congrArg (· ++ _) reported).trans ?_
      by_cases present : codes.contains refusal.code = true
      · rw [if_pos present, if_pos present, List.flatMap_cons, Failure.diagnostics_eq_reports]
      · rw [if_neg present, if_neg present, List.nil_append]
  | «repeated» shared admitted others ih => exact ih near
  | @included chain references below rest reference uri text document admitted read inside others
      ihInside ih =>
      have silent := Diagnostic.filter_among_eq_nil fun code among =>
        reserved code among uri text document read
      have further : rootDepth ≤ (trail ++ [reference]).length + 1 := by
        rw [List.length_append]
        omega
      rw [Inclusions.diagnostics_included, ← Site.ofTrail_append near, Inclusions.failures,
        List.filter_append, List.filter_append, silent, List.filter_append, List.flatMap_append,
        ihInside further, ih near]
      rfl

/-! ### Whole analyses -/

/-- How many references lead to the root document of an analysis. A copybook that is asked for is
itself the root document. -/
def rootDepth : Subject → Nat
  | .document _ _ => 0
  | .copybook _ => 1

theorem rootDepth_le_one (subject : Subject) : rootDepth subject ≤ 1 := by
  cases subject with
  | document uri text => exact Nat.zero_le 1
  | copybook name => exact Nat.le_refl 1

theorem Refusal.location_diagnostic (reference : Reference) (refusal : Refusal) :
    (refusal.diagnostic reference).location = reference.location := by
  cases refusal with
  | circular path => rfl
  | tooDeep limit => rfl
  | cancelled => rfl
  | notFound => rfl
  | timedOut timeout => rfl
  | broken error => rfl

namespace Analyzer

variable {ω τ : Type} (analyzer : Analyzer ω τ)

def run : Subject → ω → Option (Outcome ω)
  | .document uri text => analyzer.document uri text
  | .copybook name => analyzer.copybook name

def roots : Subject → List Reference
  | .copybook name => [requestOf name]
  | .document uri text =>
      match analyzer.reading.document uri text with
      | .error _ => []
      | .ok document => document.references

def base : Subject → Context
  | .copybook _ => .empty
  | .document uri text =>
      match analyzer.reading.document uri text with
      | .error error => unreadable uri error
      | .ok document => document.context

theorem reads_document {uri : String} {text : List Char} {document : Parse.ParsedDocument}
    (read : analyzer.reading.document uri text = .ok document) :
    analyzer.base (.document uri text) = document.context ∧
      analyzer.roots (.document uri text) = document.references := by
  constructor
  · simp only [base, read]
  · simp only [roots, read]

theorem explore_nil (deeper : Nat) (chain : List LogicalName) (ledger : Ledger ω) :
    analyzer.explore deeper chain [] ledger = some (.none, ledger) := by
  cases deeper with
  | zero => rfl
  | succ deeper => rfl

theorem run_eq_explore (subject : Subject) (world : ω) :
    analyzer.run subject world =
      (analyzer.explore analyzer.config.maxDepth [] (analyzer.roots subject) (.start world)).map
        fun result =>
          ⟨(result.1.contexts (.ofTrail (rootDepth subject) [])).foldl Context.merge
              (analyzer.base subject), result.2.requests, result.2.world⟩ := by
  cases subject with
  | copybook name => rfl
  | document uri text =>
      cases read : analyzer.reading.document uri text with
      | error error =>
          simp only [run, roots, base, document, read, analyzer.explore_nil]
          rfl
      | ok parsed =>
          simp only [run, roots, base, document, read]
          rfl

variable {analyzer}

theorem code_ne_of_mem_base {code : String}
    (reserved : analyzer.reading.Reserves code) (apart : code ≠ Diagnostic.Code.unreadableSource)
    (subject : Subject) {diagnostic : Diagnostic}
    (member : diagnostic ∈ (analyzer.base subject).diagnostics) : diagnostic.code ≠ some code := by
  cases subject with
  | copybook name => exact absurd member List.not_mem_nil
  | document uri text =>
      cases read : analyzer.reading.document uri text with
      | error error =>
          simp only [base, read] at member
          rw [List.mem_singleton.mp member]
          exact fun same => apart (Option.some.inj same).symm
      | ok parsed =>
          simp only [base, read] at member
          exact reserved uri text parsed read diagnostic member

/-- Whatever is answered, what is reported in the end: what the root document says by itself, then
what its references contribute. -/
theorem run_cases {subject : Subject} {world : ω} {outcome : Outcome ω}
    (ran : analyzer.run subject world = some outcome) :
    ∃ tree ledger,
      analyzer.explore analyzer.config.maxDepth [] (analyzer.roots subject) (.start world) =
          some (tree, ledger) ∧
        Accounts analyzer.reading analyzer.config [] (analyzer.roots subject) tree ∧
        outcome.requests = ledger.requests ∧
        outcome.context = (tree.contexts (.ofTrail (rootDepth subject) [])).foldl Context.merge
          (analyzer.base subject) := by
  have course := analyzer.run_eq_explore subject world
  obtain ⟨⟨tree, ledger⟩, explored, same⟩ := Option.map_eq_some_iff.mp (course.symm.trans ran)
  exact ⟨tree, ledger, explored, explore_accounts (Nat.zero_add _) explored,
    congrArg Outcome.requests same.symm, congrArg Outcome.context same.symm⟩

theorem filter_outcome {codes : List String}
    (reserved : ∀ code ∈ codes, analyzer.reading.Reserves code)
    (readable : Diagnostic.Code.unreadableSource ∉ codes) {subject : Subject} {tree : Inclusions}
    (accounts : Accounts analyzer.reading analyzer.config [] (analyzer.roots subject) tree) :
    ((tree.contexts (.ofTrail (rootDepth subject) [])).foldl Context.merge
        (analyzer.base subject)).diagnostics.filter (Diagnostic.among codes) =
      ((tree.failures []).filter fun failure => codes.contains failure.refusal.code).flatMap
        (Failure.diagnostics (rootDepth subject)) := by
  have silent : (analyzer.base subject).diagnostics.filter (Diagnostic.among codes) = [] :=
    Diagnostic.filter_among_eq_nil fun code present _ member =>
      code_ne_of_mem_base (reserved code present) (fun same => readable (same ▸ present)) subject
        member
  rw [Context.diagnostics_foldl_merge, List.filter_append, silent,
    accounts.filter_diagnostics reserved (rootDepth_le_one subject), List.nil_append]

theorem diagnostics_infix_outcome (subject : Subject) {tree : Inclusions} {failure : Failure}
    (member : failure ∈ tree.failures []) :
    failure.diagnostics (rootDepth subject) <:+:
      ((tree.contexts (.ofTrail (rootDepth subject) [])).foldl Context.merge
        (analyzer.base subject)).diagnostics := by
  rw [Context.diagnostics_foldl_merge]
  exact (tree.diagnostics_infix (rootDepth_le_one subject) member).trans
    (List.suffix_append _ _).isInfix

end Analyzer

/-- Whatever is answered, the reports of copybook resolution in the result are those of the
references that failed, in order. The report of each is at its place, and it comes again right
after, at the root document's COPY statement, just if the reference stands further below. -/
theorem failures_surface_once {ω τ : Type} (config : Config) (format : Source.Format)
    (options : Parse.Options) (exchange : Exchange ω τ) (subject : Subject) (world : ω)
    (outcome : Outcome ω)
    (ran : Analyzer.run ⟨.standard config format options, config, exchange⟩ subject world =
      some outcome) :
    let analyzer : Analyzer ω τ := ⟨.standard config format options, config, exchange⟩
    ∃ tree ledger,
      analyzer.explore config.maxDepth [] (analyzer.roots subject) (.start world) =
          some (tree, ledger) ∧
        Accounts analyzer.reading config [] (analyzer.roots subject) tree ∧
        outcome.context.diagnostics.filter Diagnostic.isResolution =
          (tree.failures []).flatMap (Failure.diagnostics (rootDepth subject)) ∧
        ∀ failure ∈ tree.failures [],
          (failure.refusal.diagnostic failure.reference).location = failure.reference.location ∧
            failure.diagnostics (rootDepth subject) <:+: outcome.context.diagnostics := by
  intro analyzer
  obtain ⟨tree, ledger, explored, accounts, _, context⟩ := Analyzer.run_cases ran
  refine ⟨tree, ledger, explored, accounts, ?_, ?_⟩
  · have reserved : ∀ code ∈ Diagnostic.resolutionCodes, analyzer.reading.Reserves code :=
      fun _ member => Reading.standard_reserves config format options member
    have everything : ((tree.failures []).filter fun failure =>
        Diagnostic.resolutionCodes.contains failure.refusal.code) = tree.failures [] :=
      List.filter_eq_self.mpr fun failure _ =>
        List.contains_iff_mem.mpr failure.refusal.code_mem_resolutionCodes
    have reported := Analyzer.filter_outcome reserved (by decide) accounts
    rw [everything, ← context] at reported
    exact reported
  · intro failure member
    rw [context]
    exact ⟨failure.refusal.location_diagnostic failure.reference,
      analyzer.diagnostics_infix_outcome subject member⟩

namespace Scenario.Sample

def missingLast : List Char := "       COPY A.\n       COPY D.".toList

def reports {ω : Type} (outcome : Outcome ω) : List (String × Option String) :=
  (outcome.context.diagnostics.filter Diagnostic.isResolution).map fun diagnostic =>
    (diagnostic.location.uri, diagnostic.code)

end Scenario.Sample

section Sample

open Scenario

/-- The copybook that is asked for reports that it asks for itself once, where it does. The silent
one is asked for further below, so it is reported twice. In the document that asks for the same
copybook, both are reported twice, and a copybook that it asks for in vain is reported once. -/
theorem sample_failures_surface :
    (∃ (outcome : _) (tree : Inclusions),
      Sample.analyzer.run (.copybook Sample.outer) (Bench.withMemory Sample.script Sample.stock) =
        some outcome ∧
      Sample.reports outcome =
        [("copybook:///B", some Diagnostic.Code.copybookTimedOut),
          ("copybook:///A", some Diagnostic.Code.copybookTimedOut),
          ("copybook:///A", some Diagnostic.Code.circularCopybook)] ∧
      outcome.context.diagnostics.filter Diagnostic.isResolution =
        (tree.failures []).flatMap (Failure.diagnostics 1)) ∧
    ∃ (outcome : _) (tree : Inclusions),
      Sample.analyzer.run (.document "root" Sample.missingLast)
        (Bench.withMemory Sample.script Sample.stock) = some outcome ∧
      Sample.reports outcome =
        [("copybook:///B", some Diagnostic.Code.copybookTimedOut),
          ("root", some Diagnostic.Code.copybookTimedOut),
          ("copybook:///A", some Diagnostic.Code.circularCopybook),
          ("root", some Diagnostic.Code.circularCopybook),
          ("root", some Diagnostic.Code.copybookNotFound)] ∧
      outcome.context.diagnostics.filter Diagnostic.isResolution =
        (tree.failures []).flatMap (Failure.diagnostics 0) := by
  have byName : (Sample.analyzer.run (.copybook Sample.outer)
      (Bench.withMemory Sample.script Sample.stock)).map Sample.reports =
      some [("copybook:///B", some Diagnostic.Code.copybookTimedOut),
        ("copybook:///A", some Diagnostic.Code.copybookTimedOut),
        ("copybook:///A", some Diagnostic.Code.circularCopybook)] := by
    decide +kernel
  have byText : (Sample.analyzer.run (.document "root" Sample.missingLast)
      (Bench.withMemory Sample.script Sample.stock)).map Sample.reports =
      some [("copybook:///B", some Diagnostic.Code.copybookTimedOut),
        ("root", some Diagnostic.Code.copybookTimedOut),
        ("copybook:///A", some Diagnostic.Code.circularCopybook),
        ("root", some Diagnostic.Code.circularCopybook),
        ("root", some Diagnostic.Code.copybookNotFound)] := by
    decide +kernel
  constructor
  · obtain ⟨outcome, ran, reported⟩ := Option.map_eq_some_iff.mp byName
    obtain ⟨tree, _, _, _, exactly, _⟩ := failures_surface_once _ _ _ _ _ _ outcome ran
    exact ⟨outcome, tree, ran, reported, exactly⟩
  · obtain ⟨outcome, ran, reported⟩ := Option.map_eq_some_iff.mp byText
    obtain ⟨tree, _, _, _, exactly, _⟩ := failures_surface_once _ _ _ _ _ _ outcome ran
    exact ⟨outcome, tree, ran, reported, exactly⟩

end Sample

end CobolAnalysis
