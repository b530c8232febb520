/-
What each reference of a document contributes by itself.

Where every reference brings its copybook in anew, what one of them contributes does not
depend on those beside it: it is worked out along its own way only, from the copybooks to
which the reference leads. So two analyses with different copybooks at hand have the same
contribution of every reference that leads to no difference.
-/

import CobolAnalysis.Proofs.Analysis.IncludeGraph
import CobolAnalysis.Proofs.Analysis.Surfacing
import CobolAnalysis.Proofs.Scenario.Bench

namespace CobolAnalysis

open Parse (Reference)
open Provider (Memory)

namespace Shelf

variable (shelf : Shelf)

/-- The copybook of that name as a document, or why there is none. -/
def lookUp (name : LogicalName) : Except Refusal Parse.ParsedDocument :=
  match shelf.stock.answer? name with
  | none => .error (.timedOut shelf.config.timeout)
  | some answer =>
      match answer.content with
      | none => .error .notFound
      | some text =>
          match shelf.reading.document name.uri text with
          | .error error => .error (.broken error)
          | .ok document => .ok document

/-- What a reference at the end of `chain` comes to, at most `deeper` copybooks further down. -/
def contribution : Nat → List LogicalName → Site → Reference → Context
  | 0, chain, site, reference =>
      .ofDiagnostics ((shelf.refusalAtLimit chain reference).reports site reference)
  | deeper + 1, chain, site, reference =>
      if reference.name ∈ chain then
        .ofDiagnostics ((Refusal.circular (chain ++ [reference.name])).reports site reference)
      else
        match shelf.lookUp reference.name with
        | .error refusal => .ofDiagnostics (refusal.reports site reference)
        | .ok document =>
            ((document.references.map
                (contribution deeper (chain ++ [reference.name]) (site.below reference))).foldl
              Context.merge document.context).define .copybook reference.name.text
                (.documentStart reference.name.uri)

variable {shelf}

/-! ### An analysis contributes reference by reference -/

theorem settleAll_independent (independent : shelf.config.dedup = .independent)
    (chain : List LogicalName) (references : List Reference) (record : Ledger Unit) :
    (shelf.settleAll chain references record).1 = references.map fun reference =>
      if reference.name ∈ chain then
        .refused reference (.circular (chain ++ [reference.name]))
      else shelf.settle reference := by
  have never (name : LogicalName) (record : Ledger Unit) :
      ¬(shelf.config.dedup = .shared ∧ name ∈ record.claimed) := by
    rintro ⟨shared, _⟩
    rw [independent] at shared
    cases shared
  induction references generalizing record with
  | nil => rfl
  | cons reference rest ih =>
      rcases shelf.settleAll_cases chain reference rest record with
        ⟨circular, whole⟩ | ⟨_, again, _⟩ | ⟨off, _, whole⟩
      · rw [whole, List.map_cons, if_pos circular, ih]
      · exact absurd again (never reference.name record)
      · rw [whole, List.map_cons, if_neg off, ih]

theorem graft_settle (shelf : Shelf)
    (follow : LogicalName → List Reference → Ledger Unit → Inclusions × Ledger Unit)
    (reference : Reference) (rest : List Settled) (record : Ledger Unit) :
    (∃ refusal, shelf.lookUp reference.name = .error refusal ∧
      (shelf.graft follow (shelf.settle reference :: rest) record).1 =
        .refused reference refusal (shelf.graft follow rest record).1) ∨
    ∃ document between, shelf.lookUp reference.name = .ok document ∧
      (shelf.graft follow (shelf.settle reference :: rest) record).1 =
        .included reference reference.name.uri document.context
          (follow reference.name document.references record).1
          (shelf.graft follow rest between).1 := by
  unfold settle lookUp Memory.answer? Memory.fetch
  by_cases silent : shelf.stock.isSilent reference.name
  · rw [if_pos silent, if_pos silent]
    exact Or.inl ⟨_, rfl, rfl⟩
  · rw [if_neg silent, if_neg silent]
    cases shelf.stock.copybooks.get? reference.name with
    | none => exact Or.inl ⟨_, rfl, rfl⟩
    | some text =>
        cases read : shelf.reading.document reference.name.uri text with
        | error error =>
            simp only [FetchResult.located, graft, read]
            exact Or.inl ⟨_, rfl, rfl⟩
        | ok document =>
            simp only [FetchResult.located, graft, read]
            exact Or.inr ⟨document, _, rfl, rfl⟩

theorem contexts_graft
    {follow : LogicalName → List Reference → Ledger Unit → Inclusions × Ledger Unit}
    {chain : List LogicalName} {site : Site} {deeper : Nat}
    (followed : ∀ (reference : Reference) references record,
      (follow reference.name references record).1.contexts (site.below reference) =
        references.map
          (shelf.contribution deeper (chain ++ [reference.name]) (site.below reference)))
    (references : List Reference) (record : Ledger Unit) :
    (shelf.graft follow (references.map fun reference =>
        if reference.name ∈ chain then
          .refused reference (.circular (chain ++ [reference.name]))
        else shelf.settle reference) record).1.contexts site =
      references.map (shelf.contribution (deeper + 1) chain site) := by
  induction references generalizing record with
  | nil => rfl
  | cons reference rest ih =>
      rw [List.map_cons, List.map_cons]
      by_cases circular : reference.name ∈ chain
      · rw [if_pos circular, contribution, if_pos circular]
        exact congrArg (_ :: ·) (ih record)
      · rw [if_neg circular, contribution, if_neg circular]
        rcases shelf.graft_settle follow reference _ record with
          ⟨refusal, failed, whole⟩ | ⟨document, between, found, whole⟩
        · rw [whole, failed]
          exact congrArg (_ :: ·) (ih record)
        · rw [whole, found, Inclusions.contexts, followed, ih]

theorem contexts_survey (independent : shelf.config.dedup = .independent) (deeper : Nat)
    (chain : List LogicalName) (site : Site) (references : List Reference)
    (record : Ledger Unit) :
    (shelf.survey deeper chain references record).1.contexts site =
      references.map (shelf.contribution deeper chain site) := by
  induction deeper generalizing chain site references record with
  | zero =>
      induction references with
      | nil => rfl
      | cons reference rest ih => exact congrArg (_ :: ·) ih
  | succ deeper ih =>
      unfold survey
      simp only
      rw [settleAll_independent independent]
      exact contexts_graft (fun reference references record =>
        ih (chain ++ [reference.name]) (site.below reference) references record) references _

/-! ### What a contribution depends on -/

def stocked (shelf : Shelf) (stock : Memory) : Shelf := { shelf with stock := stock }

theorem lookUp_stocked {other : Memory} {name : LogicalName}
    (agree : shelf.stock.answer? name = other.answer? name) :
    (shelf.stocked other).lookUp name = shelf.lookUp name := by
  unfold lookUp
  rw [agree]
  rfl

theorem copybook?_of_lookUp {name : LogicalName} {document : Parse.ParsedDocument}
    (found : shelf.lookUp name = .ok document) : shelf.copybook? name = some document := by
  unfold lookUp Memory.answer? Memory.fetch at found
  unfold copybook?
  by_cases silent : shelf.stock.isSilent name
  · rw [if_pos silent] at found
    cases found
  · rw [if_neg silent] at found ⊢
    cases held : shelf.stock.copybooks.get? name with
    | none =>
        rw [held] at found
        cases found
    | some text =>
        rw [held] at found
        simp only [FetchResult.located] at found ⊢
        cases read : shelf.reading.document name.uri text with
        | error error =>
            rw [read] at found
            cases found
        | ok parsed =>
            rw [read] at found
            cases found
            rfl

/-- A contribution stays the same as long as every name to which the reference leads is answered in
the same way. -/
theorem contribution_stocked {other : Memory} (deeper : Nat) (chain : List LogicalName)
    (site : Site) (reference : Reference)
    (agree : ∀ steps name, shelf.Reaches [reference] steps name →
      shelf.stock.answer? name = other.answer? name) :
    (shelf.stocked other).contribution deeper chain site reference =
      shelf.contribution deeper chain site reference := by
  induction deeper generalizing chain site reference with
  | zero => rfl
  | succ deeper ih =>
      have here : shelf.Reaches [reference] 1 reference.name := .here (List.mem_singleton_self _)
      unfold contribution
      rw [lookUp_stocked (agree 1 reference.name here)]
      cases found : shelf.lookUp reference.name with
      | error refusal => rfl
      | ok document =>
          have below : document.references.map ((shelf.stocked other).contribution deeper
              (chain ++ [reference.name]) (site.below reference)) =
                document.references.map (shelf.contribution deeper (chain ++ [reference.name])
                  (site.below reference)) := by
            refine List.map_congr_left fun inner member => ih _ _ inner fun steps name reaches => ?_
            refine agree (steps + 1) name (.further (List.mem_singleton_self _)
              (copybook?_of_lookUp found) ?_)
            cases reaches with
            | here same => exact List.mem_singleton.mp same ▸ .here member
            | further same there onward =>
                cases List.mem_singleton.mp same
                exact .further member there onward
          simp only [below]

end Shelf

/-! ### Two analyses -/

/-- How the outcome of a document is made up: what the document says by itself, and one context for
each of its references, merged in their order. -/
structure Analyzer.Composes {ω τ : Type} (analyzer : Analyzer ω τ) (uri : String)
    (text : List Char) (world : ω) (contributions : List Context) (outcome : Outcome ω) :
    Prop where
  ran : analyzer.document uri text world = some outcome
  found : ∃ tree ledger, analyzer.explore analyzer.config.maxDepth []
    (analyzer.roots (.document uri text)) (.start world) = some (tree, ledger) ∧
      contributions = tree.contexts .root
  each : contributions.length = (analyzer.roots (.document uri text)).length
  merged : outcome.context =
    contributions.foldl Context.merge (analyzer.base (.document uri text))

theorem Shelf.composes {σ : Type} {shelf : Shelf} (independent : shelf.config.dedup = .independent)
    {venue : Venue σ} {bus : Bus (Board σ)} (attached : venue.Attached shelf.stock [] bus)
    (uri : String) (text : List Char) :
    ∃ least, ∀ limit, least ≤ limit → ∃ outcome,
      (shelf.analyzer venue limit).Composes uri text bus
        (((shelf.analyzer venue limit).roots (.document uri text)).map
          (shelf.contribution shelf.config.maxDepth [] .root)) outcome := by
  let roots := (shelf.analyzer venue 0).roots (.document uri text)
  obtain ⟨least, rest, explored, _⟩ :=
    shelf.explore_mirrors shelf.config.maxDepth [] roots (.start ()) bus attached
  have contexts := contexts_survey independent shelf.config.maxDepth [] .root roots (.start ())
  refine ⟨least, fun limit enough => ?_⟩
  have went : (shelf.analyzer venue limit).explore shelf.config.maxDepth [] roots (.start bus) =
    _ := explored limit enough
  have ran := (shelf.analyzer venue limit).run_eq_explore (.document uri text) bus
  refine ⟨_, ran.trans (congrArg (Option.map _) went), ⟨_, _, went, contexts.symm⟩,
    List.length_map _, ?_⟩
  exact congrArg (List.foldl Context.merge _) contexts

/-- With other copybooks at hand, a document has the same contribution of each reference that leads
only to names that are answered as before. In particular, whatever becomes of one copybook makes
no difference to the contributions of references that do not lead to it. -/
theorem contributions_isolated {σ τ : Type} (shelf : Shelf) (other : Memory)
    (independent : shelf.config.dedup = .independent) (venue : Venue σ) (bus : Bus (Board σ))
    (attached : venue.Attached shelf.stock [] bus) (annex : Venue τ) (otherBus : Bus (Board τ))
    (otherAttached : annex.Attached other [] otherBus) (uri : String) (text : List Char) :
    ∃ least, ∀ limit, least ≤ limit →
      let analyzer := shelf.analyzer venue limit
      ∃ (contributions otherContributions : List Context) (outcome : Outcome (Bus (Board σ)))
        (otherOutcome : Outcome (Bus (Board τ))),
        analyzer.Composes uri text bus contributions outcome ∧
        ((shelf.stocked other).analyzer annex limit).Composes uri text otherBus
          otherContributions otherOutcome ∧
        (∀ (index : Nat) reference,
          (analyzer.roots (.document uri text))[index]? = some reference →
          (∀ steps name, shelf.Reaches [reference] steps name →
            shelf.stock.answer? name = other.answer? name) →
          contributions[index]? = otherContributions[index]?) ∧
        ∀ bad, (∀ name, name ≠ bad → shelf.stock.answer? name = other.answer? name) →
          ∀ (index : Nat) reference,
            (analyzer.roots (.document uri text))[index]? = some reference →
            (∀ steps, ¬shelf.Reaches [reference] steps bad) →
            contributions[index]? = otherContributions[index]? := by
  obtain ⟨first, composed⟩ := Shelf.composes independent attached uri text
  obtain ⟨second, otherComposed⟩ :=
    @Shelf.composes τ (shelf.stocked other) independent annex otherBus otherAttached uri text
  refine ⟨max first second, fun limit enough => ?_⟩
  obtain ⟨outcome, makes⟩ := composed limit (by omega)
  obtain ⟨otherOutcome, otherMakes⟩ := otherComposed limit (by omega)
  have isolated : ∀ (index : Nat) reference,
      ((shelf.analyzer venue limit).roots (.document uri text))[index]? = some reference →
      (∀ steps name, shelf.Reaches [reference] steps name →
        shelf.stock.answer? name = other.answer? name) →
      (((shelf.analyzer venue limit).roots (.document uri text)).map
          (shelf.contribution shelf.config.maxDepth [] .root))[index]? =
        (((shelf.analyzer venue limit).roots (.document uri text)).map
          ((shelf.stocked other).contribution shelf.config.maxDepth [] .root))[index]? := by
    intro index reference there agree
    rw [List.getElem?_map, List.getElem?_map, there]
    exact congrArg some
      (Shelf.contribution_stocked shelf.config.maxDepth [] .root reference agree).symm
  refine ⟨_, _, outcome, otherOutcome, makes, otherMakes, isolated, ?_⟩
  intro bad elsewhere index reference there apart
  refine isolated index reference there fun steps name reaches => elsewhere name ?_
  rintro rfl
  exact apart steps reaches

namespace Scenario.Neighbours

/-! ### Two references side by side

The document asks for X and Y, and neither copybook asks for another. -/

def x : LogicalName := ⟨['X']⟩

def y : LogicalName := ⟨['Y']⟩

def stock : Memory where
  copybooks := .ofList [(x, "       01 ITEM-X.".toList)]
  silent := []
  requests := 0

def spoilt : Memory := stock.insert y ['\x00']

def text : List Char := "       COPY X.\n       COPY Y.".toList

def shelf : Shelf :=
  let config := { Config.standard with dedup := .independent }
  ⟨.standard config .fixed ⟨true, true⟩, config, stock⟩

theorem same_elsewhere (name : LogicalName) (other : name ≠ y) :
    stock.answer? name = spoilt.answer? name := by
  have there : spoilt.copybooks.get? name = stock.copybooks.get? name :=
    (Table.get?_insert stock.copybooks y name ['\x00']).trans (if_neg other)
  unfold Memory.answer? Memory.fetch
  rw [there]
  rfl

theorem eq_of_reaches {reference : Reference} (named : reference.name = x) {steps : Nat}
    {name : LogicalName} (reaches : shelf.Reaches [reference] steps name) : name = x := by
  have alone : (shelf.copybook? x).map Parse.ParsedDocument.references = some [] := by
    decide +kernel
  cases reaches with
  | here same => rw [List.mem_singleton.mp same, named]
  | further same found onward =>
      rw [List.mem_singleton.mp same, named] at found
      rw [found] at alone
      rw [Option.some.inj alone] at onward
      cases onward with
      | here member => exact absurd member List.not_mem_nil
      | further member _ _ => exact absurd member List.not_mem_nil

end Scenario.Neighbours

section Sample

open Scenario

/-- Without the second copybook and with a binary one in its place, the first reference contributes
the same; the second is reported to have found nothing, or something that cannot be read. -/
theorem sample_contributions_isolated :
    ∃ least, ∀ limit, least ≤ limit →
      let venue := Bench.venue Script.empty
      ∃ (contributions otherContributions : List Context)
        (outcome otherOutcome : Outcome (Bus (Board (Bench Memory)))),
        (Neighbours.shelf.analyzer venue limit).Composes "root" Neighbours.text
          (Bench.withMemory Script.empty Neighbours.stock) contributions outcome ∧
        ((Neighbours.shelf.stocked Neighbours.spoilt).analyzer venue limit).Composes "root"
          Neighbours.text (Bench.withMemory Script.empty Neighbours.spoilt) otherContributions
          otherOutcome ∧
        contributions[0]? = otherContributions[0]? ∧
        outcome.context.diagnostics.map (fun diagnostic => diagnostic.code) =
          [some Diagnostic.Code.copybookNotFound] ∧
        otherOutcome.context.diagnostics.map (fun diagnostic => diagnostic.code) =
          [some Diagnostic.Code.copybookBroken] := by
  have attached := Bench.attached_unscripted Neighbours.stock
  have otherAttached := Bench.attached_unscripted Neighbours.spoilt
  obtain ⟨first, isolated⟩ := contributions_isolated Neighbours.shelf Neighbours.spoilt rfl
    (Bench.venue Script.empty) _ attached (Bench.venue Script.empty) _ otherAttached "root"
    Neighbours.text
  obtain ⟨second, evaluates⟩ :=
    Neighbours.shelf.document_evaluates attached "root" Neighbours.text
  obtain ⟨third, otherEvaluates⟩ :=
    (Neighbours.shelf.stocked Neighbours.spoilt).document_evaluates otherAttached "root"
      Neighbours.text
  refine ⟨max first (max second third), fun limit enough => ?_⟩
  obtain ⟨contributions, otherContributions, outcome, otherOutcome, makes, otherMakes, _, apart⟩ :=
    isolated limit (by omega)
  obtain ⟨here, _⟩ := evaluates limit (by omega) outcome makes.ran
  obtain ⟨there, _⟩ := otherEvaluates limit (by omega) otherOutcome otherMakes.ran
  have names : (((Neighbours.shelf.analyzer (Bench.venue Script.empty) limit).roots
      (.document "root" Neighbours.text))[0]?).map Reference.name = some Neighbours.x := by
    change (((Neighbours.shelf.analyzer (Bench.venue Script.empty) 0).roots
      (.document "root" Neighbours.text))[0]?).map Reference.name = _
    decide +kernel
  obtain ⟨reference, listed, named⟩ := Option.map_eq_some_iff.mp names
  refine ⟨contributions, otherContributions, outcome, otherOutcome, makes, otherMakes, ?_, ?_, ?_⟩
  · refine apart Neighbours.y Neighbours.same_elsewhere 0 reference listed fun steps reaches => ?_
    exact absurd (Neighbours.eq_of_reaches named reaches) (by decide)
  · rw [here]
    decide +kernel
  · rw [there]
    decide +kernel

end Sample

end CobolAnalysis
