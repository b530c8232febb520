/-
The bounds of an analysis.

Whatever comes back for its requests, new content each time or endless new names, an
analysis on a bus on which every publication comes to an end does so itself. The measure is
the nesting depth less the length of the chain. Each chain is free of repetitions and no
longer than the depth, and a request is made only where the chain may still grow by its
name. A reference for which it may not is reported instead.
-/

import CobolAnalysis.Proofs.Analysis.Termination
import CobolAnalysis.Proofs.Analysis.Turns

namespace CobolAnalysis

open Parse (Reference)
open Scenario.Bench (Subject)

/-! ### Chains -/

/-- The chain is one that a document may be read at. -/
structure Simple (config : Config) (chain : List LogicalName) : Prop where
  distinct : chain.Nodup
  short : chain.length ≤ config.maxDepth

theorem Admits.simple {config : Config} {chain : List LogicalName} {name : LogicalName}
    (admitted : Admits config chain name) (simple : Simple config chain) :
    Simple config (chain ++ [name]) := by
  constructor
  · rw [← List.concat_eq_append]
    exact (List.nodup_concat chain name).mpr ⟨admitted.fresh, simple.distinct⟩
  · rw [List.length_append, List.length_singleton]
    exact admitted.room

theorem Accounts.simple {reading : Reading} {config : Config} {references : List Reference}
    {tree : Inclusions} (accounts : Accounts reading config [] references tree) {entry : Entry}
    (member : entry ∈ tree.inOrder []) :
    Simple config entry.request.chain ∧
      entry.fate.Warranted reading config entry.request.chain entry.name :=
  accounts.of_mem_inOrder (Simple config) (fun _ _ => Admits.simple)
    ⟨List.nodup_nil, Nat.zero_le _⟩ rfl member

theorem Fate.Warranted.of_barred {reading : Reading} {config : Config}
    {chain : List LogicalName} {name : LogicalName} {fate : Fate}
    (warranted : fate.Warranted reading config chain name) (bars : fate.barred = true) :
    (name ∈ chain ∧ fate = .refused (.circular (chain ++ [name]))) ∨
      (name ∉ chain ∧ fate = .refused (.tooDeep config.maxDepth)) := by
  cases fate with
  | refused refusal =>
      cases refusal with
      | circular path => exact Or.inl ⟨warranted.1, by rw [warranted.2]⟩
      | tooDeep limit => exact Or.inr ⟨warranted.1, by rw [warranted.2.2]⟩
      | _ => cases bars
  | «repeated» => cases bars
  | accepted => cases bars

/-- How the chains and the nesting depth bound an analysis: every document is read at the end of a
short chain without repetitions, and nothing is asked for unless its name could be added to the
chain. A reference that could not be followed for this is refused, as circular first. -/
structure Inclusions.Bounded (tree : Inclusions) (config : Config) (requests : List Request) :
    Prop where
  chains : ∀ entry ∈ tree.inOrder [],
    entry.request.chain.Nodup ∧ entry.request.chain.length ≤ config.maxDepth
  reads : ∀ entry ∈ tree.inOrder [], entry.fate.read = true →
    (entry.request.chain ++ [entry.name]).Nodup ∧
      (entry.request.chain ++ [entry.name]).length ≤ config.maxDepth
  asks : ∀ request ∈ requests,
    request.name ∉ request.chain ∧ request.chain.length < config.maxDepth
  circular : ∀ entry ∈ tree.inOrder [], entry.name ∈ entry.request.chain →
    entry.fate = .refused (.circular (entry.request.chain ++ [entry.name]))
  tooDeep : ∀ entry ∈ tree.inOrder [], entry.name ∉ entry.request.chain →
    config.maxDepth ≤ entry.request.chain.length →
      entry.fate = .refused (.tooDeep config.maxDepth)
  admitted : ∀ entry ∈ tree.inOrder [], entry.name ∉ entry.request.chain →
    entry.request.chain.length < config.maxDepth → entry.fate.barred = false
  unasked : ∀ entry ∈ tree.inOrder [], entry.fate.barred = true → entry.request ∉ requests

theorem Accounts.bounded {reading : Reading} {config : Config} {references : List Reference}
    {tree : Inclusions} (accounts : Accounts reading config [] references tree)
    {requests : List Request}
    (admitted : ∀ request ∈ requests, Admits config request.chain request.name) :
    tree.Bounded config requests := by
  have barred : ∀ entry ∈ tree.inOrder [], ¬Admits config entry.request.chain entry.name →
      entry.fate.barred = true := fun entry member blocked =>
    Bool.of_not_eq_false fun free => blocked ((accounts.admits_iff rfl member).mpr free)
  constructor
  · intro entry member
    exact ⟨(accounts.simple member).1.distinct, (accounts.simple member).1.short⟩
  · intro entry member reads
    obtain ⟨simple, warranted⟩ := accounts.simple member
    have free := Fate.not_barred_of_settles (Fate.settles_of_read reads)
    have longer := (warranted.admits_iff.mpr free).simple simple
    exact ⟨longer.distinct, longer.short⟩
  · intro request member
    exact ⟨(admitted request member).fresh, (admitted request member).room⟩
  · intro entry member around
    have bars := barred entry member fun admits => admits.fresh around
    obtain ⟨_, circular⟩ | ⟨fresh, _⟩ := (accounts.simple member).2.of_barred bars
    · exact circular
    · exact absurd around fresh
  · intro entry member fresh full
    have bars := barred entry member fun admits => Nat.not_lt_of_le full admits.room
    obtain ⟨around, _⟩ | ⟨_, tooDeep⟩ := (accounts.simple member).2.of_barred bars
    · exact absurd around fresh
    · exact tooDeep
  · intro entry member fresh room
    exact (accounts.admits_iff rfl member).mp ⟨fresh, room⟩
  · intro entry member bars asked
    have free := (accounts.admits_iff rfl member).mp (admitted entry.request asked)
    rw [free] at bars
    cases bars

theorem Analyzer.Recounts.bounded {ω τ : Type} {analyzer : Analyzer ω τ} {subject : Subject}
    {world : ω} {tree : Inclusions} {turns : List (Turn ω τ)} {outcome : Outcome ω}
    (recounts : analyzer.Recounts subject world tree turns outcome) :
    tree.Bounded analyzer.config outcome.requests := by
  obtain ⟨ledger, _, passes⟩ := recounts.passes
  refine recounts.accounts.bounded fun request member => ?_
  rw [recounts.requests] at member
  obtain ⟨turn, taken, asked⟩ := List.mem_flatMap.mp member
  cases passes.makes turn taken with
  | asked admitted first going requested =>
      rw [List.mem_singleton.mp asked]
      exact admitted
  | _ => exact absurd asked List.not_mem_nil

/-! ### Whole analyses -/

theorem Refusal.contains_code_eq_bars (refusal : Refusal) :
    [Diagnostic.Code.circularCopybook, Diagnostic.Code.copybookTooDeep].contains refusal.code =
      refusal.bars := by
  cases refusal with
  | circular path => rfl
  | tooDeep limit => rfl
  | cancelled => rfl
  | notFound => rfl
  | timedOut timeout => rfl
  | broken error => rfl

theorem Failure.code_of_mem_diagnostics {failure : Failure} {rootDepth : Nat}
    {diagnostic : Diagnostic} (member : diagnostic ∈ failure.diagnostics rootDepth) :
    diagnostic.code = some failure.refusal.code := by
  rw [Failure.diagnostics_eq_reports] at member
  exact (Refusal.says_of_mem_reports member).1

/-- Whatever comes back for its requests, an analysis comes to an end if each of them does, within
the bounds that the chains and the nesting depth set to it. A reference that was refused on that
account is reported as one failure, and nothing else is reported so. -/
theorem recursion_bounded {σ : Type} (reading : Reading) (config : Config) (flag : Part σ Bool)
    (subject : Subject) {bus : Bus (Board σ)} (returns : bus.Returns) :
    ∃ outcome,
      Converges (fun limit => (Analyzer.onBus reading config flag limit).run subject bus)
        outcome ∧
      ∀ limit, (Analyzer.onBus reading config flag limit).run subject bus = some outcome →
        let analyzer := Analyzer.onBus reading config flag limit
        ∃ tree turns,
          analyzer.Recounts subject bus tree turns outcome ∧
          tree.Bounded config outcome.requests ∧
          (analyzer.journaled.run subject (bus, [])).map (fun watched => watched.world.2) =
            some (outcome.requests.map Request.name) ∧
          (tree.failures []).Perm ((tree.inOrder []).filterMap Entry.failure?) ∧
          (∀ failure ∈ tree.failures [],
            ∀ diagnostic ∈ failure.diagnostics (rootDepth subject),
              diagnostic.code = some failure.refusal.code) ∧
          (reading.Reserves Diagnostic.Code.circularCopybook →
            reading.Reserves Diagnostic.Code.copybookTooDeep →
              outcome.context.diagnostics.filter (Diagnostic.among
                  [Diagnostic.Code.circularCopybook, Diagnostic.Code.copybookTooDeep]) =
                ((tree.failures []).filter fun failure => failure.refusal.bars).flatMap
                  (Failure.diagnostics (rootDepth subject))) := by
  obtain ⟨outcome, converges⟩ := Analyzer.run_converges reading config flag returns subject
  refine ⟨outcome, converges, ?_⟩
  intro limit ran analyzer
  obtain ⟨tree, turns, recounts, context⟩ := Analyzer.run_recounts ran
  refine ⟨tree, turns, recounts, recounts.bounded, ?_, tree.failures_perm [], ?_, ?_⟩
  · rw [Analyzer.run_journaled, ran]
    rfl
  · intro failure _ diagnostic reported
    exact Failure.code_of_mem_diagnostics reported
  · intro circular tooDeep
    have reserved : ∀ code ∈
        [Diagnostic.Code.circularCopybook, Diagnostic.Code.copybookTooDeep],
          analyzer.reading.Reserves code :=
      List.forall_mem_cons.mpr ⟨circular, List.forall_mem_singleton.mpr tooDeep⟩
    have filtered := Analyzer.filter_outcome reserved (by decide) recounts.accounts
    rw [← context] at filtered
    refine filtered.trans (congrArg (List.flatMap _) (List.filter_congr fun failure _ => ?_))
    exact failure.refusal.contains_code_eq_bars

namespace Scenario

/-- A provider that never runs out of copybooks; `made` is how many it has made up. -/
structure Mill where
  made : Nat
  cancelled : Bool

namespace Mill

def cancelledPart : Part Mill Bool where
  get := Mill.cancelled
  set := fun value mill => { mill with cancelled := value }
  get_set := fun _ _ => rfl
  set_get := fun _ => rfl
  set_set := fun _ _ _ => rfl

/-- Every request is answered by a copybook that asks for another one, under a new name. -/
def invent : Observer Mill := fun _ event =>
  match event with
  | .scan name => .read fun mill =>
      .write { mill with made := mill.made + 1 } (.publishAll
        [.fetch (.located name ("       COPY X".toList ++ Text.Decimal.digits mill.made ++ ['.']))])
  | .fetch _ => .done

def bus : Bus (Board Mill) :=
  (Bus.ofState (.ofClient ⟨0, false⟩)).subscribe .scanRequest (invent.within Board.clientPart)

def config : Config := { Config.standard with maxDepth := 2 }

def analyzer (limit : Nat) : Analyzer (Bus (Board Mill)) Task :=
  .onBus (.standard config .fixed ⟨true, true⟩) config cancelledPart limit

def text : List Char := "       COPY A.".toList

theorem calm : bus.Calm := by
  refine ⟨rfl, List.forall_mem_singleton.mpr fun name board => ?_, List.forall_mem_nil _⟩
  have answers : (invent 0 (.scan name)).Unobtrusive (fun event => event.kind = .fetchResult)
      (fun _ => True) board.client :=
    ⟨trivial, rfl, trivial⟩
  exact Procedure.Unobtrusive.within Board.clientPart (fun _ _ _ _ => trivial) _ board trivial
    answers

end Mill

end Scenario

section Sample

open Scenario (Mill)

/-- Every copybook asks for one more, and the third one lies too deep. -/
theorem sample_recursion_bounded :
    ∃ outcome,
      Mill.bus.Returns ∧
      Converges (fun limit => (Mill.analyzer limit).run (.document "root" Mill.text) Mill.bus)
        outcome ∧
      outcome.requests.map Request.name = [⟨['A']⟩, ⟨['X', '0']⟩] ∧
      outcome.context.diagnostics.map
          (fun diagnostic => (diagnostic.location.uri, diagnostic.code)) =
        [("copybook:///X0", some Diagnostic.Code.copybookTooDeep),
          ("root", some Diagnostic.Code.copybookTooDeep)] ∧
      ∃ tree : Inclusions, tree.Bounded Mill.config outcome.requests ∧
        outcome.context.diagnostics.filter (Diagnostic.among
            [Diagnostic.Code.circularCopybook, Diagnostic.Code.copybookTooDeep]) =
          ((tree.failures []).filter fun failure => failure.refusal.bars).flatMap
            (Failure.diagnostics 0) := by
  have evaluated : ((Mill.analyzer 2).run (.document "root" Mill.text) Mill.bus).map
      (fun outcome => (outcome.requests.map Request.name, outcome.context.diagnostics.map
        (fun diagnostic => (diagnostic.location.uri, diagnostic.code)))) =
      some ([⟨['A']⟩, ⟨['X', '0']⟩],
        [("copybook:///X0", some Diagnostic.Code.copybookTooDeep),
          ("root", some Diagnostic.Code.copybookTooDeep)]) := by
    decide +kernel
  obtain ⟨outcome, ran, same⟩ := Option.map_eq_some_iff.mp evaluated
  have returns := Mill.calm.returns
  obtain ⟨other, converges, account⟩ := recursion_bounded
    (.standard Mill.config .fixed ⟨true, true⟩) Mill.config Mill.cancelledPart
    (.document "root" Mill.text) returns
  obtain rfl := converges.unique 2 outcome ran
  obtain ⟨tree, _, _, bounded, _, _, _, reported⟩ := account 2 ran
  exact ⟨outcome, returns, converges, congrArg Prod.fst same, congrArg Prod.snd same, tree,
    bounded, reported (Reading.standard_reserves _ _ _ (by decide))
      (Reading.standard_reserves _ _ _ (by decide))⟩

end Sample

end CobolAnalysis
