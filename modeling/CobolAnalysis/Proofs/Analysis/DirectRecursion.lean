/-
The analysis as one recursion, without a bus.

A document's references are checked in order, each against the way to it, the depth
and the names that were taken up before. Then every accepted copybook is looked up
and, if it can be read, worked through with everything below it before the next. An
analysis over a bus with a provider amounts to this recursion.
-/

import CobolAnalysis.Proofs.Analysis.Journal
import CobolAnalysis.Proofs.Analysis.Survey
import CobolAnalysis.Proofs.Scenario.Bench

namespace CobolAnalysis

open Parse (Reference)
open Provider (Memory)

/-- What the checks make of a reference at the end of `chain`. -/
inductive Verdict (maxDepth : Nat) (chain : List LogicalName) where
  | refused (refusal : Refusal)
  | repeated
  | accepted (room : chain.length < maxDepth)

namespace Verdict

variable {maxDepth : Nat} {chain : List LogicalName}

def asks (name : LogicalName) : Verdict maxDepth chain → List LogicalName
  | refused _ => []
  | repeated => []
  | accepted _ => [name]

end Verdict

/-- What references contribute: a context each, unless they repeat another. -/
structure Yield where
  contexts : List Context
  claimed : List LogicalName
  requests : List LogicalName

namespace Yield

def reporting (others : Yield) (site : Site) (reference : Reference) (refusal : Refusal) : Yield :=
  { others with
    contexts := .ofDiagnostics (refusal.reports site reference) :: others.contexts }

end Yield

namespace Shelf

variable (shelf : Shelf)

def judge (chain claimed : List LogicalName) (name : LogicalName) :
    Verdict shelf.config.maxDepth chain :=
  if name ∈ chain then .refused (.circular (chain ++ [name]))
  else if room : chain.length < shelf.config.maxDepth then
    if shelf.config.dedup = .shared ∧ name ∈ claimed then .repeated else .accepted room
  else .refused (.tooDeep shelf.config.maxDepth)

/-- The verdicts on the references of one document. A name that is accepted counts as taken up
for the references after it. -/
def judgeAll (chain : List LogicalName) :
    List Reference → List LogicalName →
      List (Reference × Verdict shelf.config.maxDepth chain) × List LogicalName
  | [], claimed => ([], claimed)
  | reference :: rest, claimed =>
      let verdict := shelf.judge chain claimed reference.name
      let others := judgeAll chain rest (claimed ++ verdict.asks reference.name)
      ((reference, verdict) :: others.1, others.2)

def asked {chain : List LogicalName}
    (judged : List (Reference × Verdict shelf.config.maxDepth chain)) : List LogicalName :=
  judged.flatMap fun entry => entry.2.asks entry.1.name

private theorem depth_lt {maxDepth : Nat} {chain : List LogicalName} (name : LogicalName)
    (room : chain.length < maxDepth) :
    maxDepth - (chain ++ [name]).length < maxDepth - chain.length := by
  rw [List.length_append, List.length_singleton]
  omega

/-- Works through the references of one document, which stands at `site`. -/
def process (chain : List LogicalName) (site : Site) :
    List (Reference × Verdict shelf.config.maxDepth chain) → List LogicalName → Yield
  | [], claimed => ⟨[], claimed, []⟩
  | (reference, .refused refusal) :: rest, claimed =>
      (process chain site rest claimed).reporting site reference refusal
  | (_, .repeated) :: rest, claimed => process chain site rest claimed
  | (reference, .accepted _) :: rest, claimed =>
      if shelf.stock.isSilent reference.name then
        (process chain site rest claimed).reporting site reference (.timedOut shelf.config.timeout)
      else
        match shelf.stock.copybooks.get? reference.name with
        | none => (process chain site rest claimed).reporting site reference .notFound
        | some text =>
            match shelf.reading.document reference.name.uri text with
            | .error error =>
                (process chain site rest claimed).reporting site reference (.broken error)
            | .ok document =>
                let inner := chain ++ [reference.name]
                let judged := shelf.judgeAll inner document.references claimed
                let below := process inner (site.below reference) judged.1 judged.2
                let others := process chain site rest below.claimed
                ⟨(below.contexts.foldl Context.merge document.context).define .copybook
                    reference.name.text (.documentStart reference.name.uri) :: others.contexts,
                  others.claimed,
                  shelf.asked judged.1 ++ below.requests ++ others.requests⟩
termination_by judged _ => (shelf.config.maxDepth - chain.length, judged.length)
decreasing_by
  any_goals exact Prod.Lex.right _ (Nat.lt_succ_self rest.length)
  exact Prod.Lex.left _ _ (depth_lt reference.name (by assumption))

/-- The context of a document and what was asked for on the way to it. -/
structure Summary where
  context : Context
  requests : List LogicalName

def direct (uri : String) (text : List Char) : Summary :=
  match shelf.reading.document uri text with
  | .error error => ⟨Analyzer.unreadable uri error, []⟩
  | .ok document =>
      let judged := shelf.judgeAll [] document.references []
      let below := shelf.process [] .root judged.1 judged.2
      ⟨below.contexts.foldl Context.merge document.context, shelf.asked judged.1 ++ below.requests⟩

/-! ### The recursion follows the survey -/

def settledOf {chain : List LogicalName}
    (entry : Reference × Verdict shelf.config.maxDepth chain) : Settled :=
  match entry.2 with
  | .refused refusal => .refused entry.1 refusal
  | .repeated => .repeated entry.1
  | .accepted _ => shelf.settle entry.1

theorem settleAll_judgeAll (chain : List LogicalName) (room : chain.length < shelf.config.maxDepth)
    (references : List Reference) (record : Ledger Unit) :
    (shelf.settleAll chain references record).1 =
        (shelf.judgeAll chain references record.claimed).1.map shelf.settledOf ∧
      (shelf.settleAll chain references record).2.claimed =
        (shelf.judgeAll chain references record.claimed).2 ∧
      (shelf.settleAll chain references record).2.requests.map Request.name =
        record.requests.map Request.name ++
          shelf.asked (shelf.judgeAll chain references record.claimed).1 := by
  induction references generalizing record with
  | nil => exact ⟨rfl, rfl, (List.append_nil _).symm⟩
  | cons reference rest ih =>
      unfold judgeAll judge
      rcases shelf.settleAll_cases chain reference rest record with
        ⟨circular, whole⟩ | ⟨off, again, whole⟩ | ⟨off, fresh, whole⟩
      · obtain ⟨settled, claimed, requests⟩ := ih record
        simp only [whole, if_pos circular, Verdict.asks, List.append_nil]
        exact ⟨congrArg (_ :: ·) settled, claimed, requests⟩
      · obtain ⟨settled, claimed, requests⟩ := ih record
        simp only [whole, if_neg off, dif_pos room, if_pos again, Verdict.asks, List.append_nil]
        exact ⟨congrArg (_ :: ·) settled, claimed, requests⟩
      · obtain ⟨settled, claimed, requests⟩ :=
          ih ((record.claim reference.name).asked ⟨chain, reference.name⟩ ())
        simp only [whole, if_neg off, dif_pos room, if_neg fresh, Verdict.asks]
        refine ⟨congrArg (_ :: ·) settled, claimed, requests.trans ?_⟩
        change (record.requests ++ [_]).map Request.name ++ _ = _ ++ ([_] ++ _)
        rw [List.map_append, List.append_assoc]
        rfl

/-- The recursion and a survey contribute the same, and their claims and requests go on alike. -/
structure Agrees (site : Site) (record : Ledger Unit) (earlier : List LogicalName)
    (surveyed : Inclusions × Ledger Unit) (yield : Yield) : Prop where
  contexts : surveyed.1.contexts site = yield.contexts
  claimed : surveyed.2.claimed = yield.claimed
  requests : surveyed.2.requests.map Request.name =
    record.requests.map Request.name ++ earlier ++ yield.requests

theorem Agrees.reporting {site : Site} {record : Ledger Unit}
    {surveyed : Inclusions × Ledger Unit} {yield : Yield}
    (agrees : Agrees site record [] surveyed yield) (reference : Reference) (refusal : Refusal) :
    Agrees site record [] (.refused reference refusal surveyed.1, surveyed.2)
      (yield.reporting site reference refusal) :=
  ⟨congrArg (_ :: ·) agrees.contexts, agrees.claimed, agrees.requests⟩

theorem graft_process (chain : List LogicalName) (site : Site)
    (follow : LogicalName → List Reference → Ledger Unit → Inclusions × Ledger Unit)
    (followed : ∀ name references record site,
      let judged := shelf.judgeAll (chain ++ [name]) references record.claimed
      Agrees site record (shelf.asked judged.1) (follow name references record)
        (shelf.process (chain ++ [name]) site judged.1 judged.2))
    (judged : List (Reference × Verdict shelf.config.maxDepth chain)) (record : Ledger Unit) :
    Agrees site record [] (shelf.graft follow (judged.map shelf.settledOf) record)
      (shelf.process chain site judged record.claimed) := by
  induction judged generalizing record with
  | nil =>
      rw [process]
      exact ⟨rfl, rfl, by rw [List.append_nil, List.append_nil]; rfl⟩
  | cons entry rest ih =>
      obtain ⟨reference, verdict⟩ := entry
      cases verdict with
      | refused refusal =>
          rw [process]
          exact (ih record).reporting reference refusal
      | repeated =>
          rw [process]
          exact ⟨(ih record).contexts, (ih record).claimed, (ih record).requests⟩
      | accepted room =>
          rw [process, List.map_cons]
          unfold settledOf settle
          simp only
          by_cases silent : shelf.stock.isSilent reference.name
          · rw [if_pos silent, if_pos silent]
            exact (ih record).reporting reference _
          · rw [if_neg silent, if_neg silent]
            cases shelf.stock.copybooks.get? reference.name with
            | none => exact (ih record).reporting reference _
            | some text =>
                cases read : shelf.reading.document reference.name.uri text with
                | error error =>
                    simp only [graft, read]
                    exact (ih record).reporting reference _
                | ok document =>
                    simp only [graft, read]
                    have below := followed reference.name document.references record
                      (site.below reference)
                    have others := ih (follow reference.name document.references record).2
                    rw [below.claimed] at others
                    refine ⟨?_, others.claimed, ?_⟩
                    · simp only [Inclusions.contexts]
                      rw [below.contexts]
                      exact congrArg (_ :: ·) others.contexts
                    · refine others.requests.trans ?_
                      rw [below.requests]
                      simp only [List.append_assoc, List.append_nil]

theorem judge_atLimit (chain claimed : List LogicalName)
    (full : ¬chain.length < shelf.config.maxDepth) (reference : Reference) :
    shelf.judge chain claimed reference.name =
      .refused (shelf.refusalAtLimit chain reference) := by
  unfold judge refusalAtLimit
  by_cases circular : reference.name ∈ chain
  · rw [if_pos circular, if_pos (List.contains_iff_mem.mpr circular)]
  · have off : ¬chain.contains reference.name := fun there =>
      circular (List.contains_iff_mem.mp there)
    rw [if_neg circular, dif_neg full, if_neg off]

theorem process_atLimit (chain : List LogicalName) (site : Site)
    (full : ¬chain.length < shelf.config.maxDepth) (references : List Reference)
    (record : Ledger Unit) :
    let judged := shelf.judgeAll chain references record.claimed
    Agrees site record (shelf.asked judged.1) (shelf.survey 0 chain references record)
      (shelf.process chain site judged.1 judged.2) := by
  induction references with
  | nil =>
      simp only [judgeAll, process]
      exact ⟨rfl, rfl, by simp [survey, asked]⟩
  | cons reference rest ih =>
      have verdict := shelf.judge_atLimit chain record.claimed full reference
      simp only [judgeAll, verdict, Verdict.asks, List.append_nil, process]
      exact ⟨congrArg (_ :: ·) ih.contexts, ih.claimed, ih.requests⟩

theorem survey_process (deeper : Nat) (chain : List LogicalName) (site : Site)
    (depth : chain.length + deeper = shelf.config.maxDepth) (references : List Reference)
    (record : Ledger Unit) :
    let judged := shelf.judgeAll chain references record.claimed
    Agrees site record (shelf.asked judged.1) (shelf.survey deeper chain references record)
      (shelf.process chain site judged.1 judged.2) := by
  induction deeper generalizing chain site references record with
  | zero => exact shelf.process_atLimit chain site (by omega) references record
  | succ deeper ih =>
      obtain ⟨settled, claimed, requests⟩ :=
        shelf.settleAll_judgeAll chain (by omega) references record
      have grafted := shelf.graft_process chain site
        (fun name => shelf.survey deeper (chain ++ [name]))
        (fun name references record site => ih (chain ++ [name]) site
          (by rw [List.length_append, List.length_singleton]; omega) references record)
        (shelf.judgeAll chain references record.claimed).1
        (shelf.settleAll chain references record).2
      -- The claims of all references of this document stand before the first copybook is read.
      rw [← settled, claimed] at grafted
      refine ⟨grafted.contexts, grafted.claimed, grafted.requests.trans ?_⟩
      rw [requests, List.append_nil]

theorem document_direct (uri : String) (text : List Char) :
    (shelf.document uri text).context = (shelf.direct uri text).context ∧
      (shelf.document uri text).requests.map Request.name =
        (shelf.direct uri text).requests := by
  unfold document direct
  cases shelf.reading.document uri text with
  | error error => exact ⟨rfl, rfl⟩
  | ok parsed =>
      have agrees := shelf.survey_process shelf.config.maxDepth [] .root
        (Nat.zero_add _) parsed.references (.start ())
      exact ⟨congrArg (List.foldl Context.merge parsed.context) agrees.contexts, agrees.requests⟩

end Shelf

/-- On a bus with one attached provider, and whatever bystanders listen before and after it, the
analysis of a document comes to an end, with exactly the context of the direct recursion. It asks
over the bus for exactly the names of the recursion, and the provider counts each request. -/
theorem analysis_eq_direct {σ : Type} (shelf : Shelf) (venue : Venue σ) (bus : Bus (Board σ))
    (attached : venue.Attached shelf.stock [] bus) (uri : String) (text : List Char) :
    ∃ least, ∀ limit, least ≤ limit → ∃ outcome,
      (shelf.analyzer venue limit).document uri text bus = some outcome ∧
        outcome.context = (shelf.direct uri text).context ∧
        outcome.requests.map Request.name = (shelf.direct uri text).requests ∧
        ((shelf.analyzer venue limit).journaled.document uri text (bus, [])).map
            (fun watched => watched.world.2) = some (shelf.direct uri text).requests ∧
        venue.memory.get outcome.world.state.client =
          shelf.stock.counting (shelf.direct uri text).requests.length := by
  obtain ⟨least, rest, analyzed, attachedAfter⟩ := shelf.document_mirrors attached uri text
  obtain ⟨context, requests⟩ := shelf.document_direct uri text
  refine ⟨least, fun limit enough => ⟨_, analyzed limit enough, context, requests, ?_, ?_⟩⟩
  · rw [Analyzer.document_journaled, analyzed limit enough]
    exact congrArg some requests
  · rw [← requests, List.length_map]
    exact attachedAfter.holds.1

section Sample

open Scenario

/-- The copybook that asks for itself and the silent one are reported, each where it stands and
at the COPY statement of the document; the answer that was published out of turn is not used. -/
theorem sample_eq_direct :
    (Bench.venue Sample.script).Attached (Sample.shelf .shared 10).stock []
        (Bench.withMemory Sample.script Sample.stock) ∧
      ∃ least, ∀ limit, least ≤ limit → ∃ outcome,
        ((Sample.shelf .shared 10).analyzer (Bench.venue Sample.script) limit).document "root"
            Sample.text (Bench.withMemory Sample.script Sample.stock) = some outcome ∧
          outcome.context.diagnostics.map (fun diagnostic => diagnostic.code) =
            [some Diagnostic.Code.circularCopybook, some Diagnostic.Code.circularCopybook,
              some Diagnostic.Code.copybookTimedOut, some Diagnostic.Code.copybookTimedOut] ∧
          outcome.requests.map Request.name = [Sample.outer, Sample.inner, Sample.silent] := by
  have attached := Sample.attached
  obtain ⟨least, analyzed⟩ := analysis_eq_direct (Sample.shelf .shared 10) _ _ attached "root"
    Sample.text
  refine ⟨attached, least, fun limit enough => ?_⟩
  obtain ⟨outcome, ends, context, requests, _, _⟩ := analyzed limit enough
  -- The recursion itself does not evaluate, the survey does.
  obtain ⟨surveyed, asked⟩ := (Sample.shelf .shared 10).document_direct "root" Sample.text
  rw [← surveyed] at context
  rw [← asked] at requests
  refine ⟨outcome, ends, ?_, ?_⟩
  · rw [context]
    decide +kernel
  · rw [requests]
    decide +kernel

end Sample

end CobolAnalysis
