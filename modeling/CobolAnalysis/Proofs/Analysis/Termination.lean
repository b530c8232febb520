/-
Analyses over a bus come to an end.

An analysis makes finitely many requests, and each of them returns after some number of
deliveries. So one limit on the deliveries is enough for all of them, and no matter what is
answered, there is one outcome, whatever the limit is with which it is reached.
-/

import CobolAnalysis.Proofs.Analysis.Surfacing
import CobolAnalysis.Proofs.Resolution.Returning

namespace CobolAnalysis

open Parse (Reference)
open Scenario.Bench (Subject)

/-! ### Courses that a limit may cut short -/

/-- The course has the value with every limit that is great enough, and no other value with any. -/
structure Converges {α : Type} (course : Nat → Option α) (value : α) : Prop where
  enough : ∃ least, ∀ limit, least ≤ limit → course limit = some value
  unique : ∀ limit other, course limit = some other → other = value

namespace Converges

variable {α β : Type} {course : Nat → Option α} {value : α}

theorem const (value : α) : Converges (fun _ => some value) value :=
  ⟨⟨0, fun _ _ => rfl⟩, fun _ _ same => (Option.some.inj same).symm⟩

theorem congr (converges : Converges course value) {other : Nat → Option α}
    (same : ∀ limit, other limit = course limit) : Converges other value := by
  rw [funext same]
  exact converges

theorem bind (converges : Converges course value) (next : Nat → α → Option β) {result : β}
    (onward : Converges (fun limit => next limit value) result) :
    Converges (fun limit => (course limit).bind (next limit)) result := by
  constructor
  · obtain ⟨first, enough⟩ := converges.enough
    obtain ⟨second, further⟩ := onward.enough
    refine ⟨max first second, fun limit above => ?_⟩
    rw [enough limit (by omega)]
    exact further limit (by omega)
  · intro limit other same
    obtain ⟨between, reached, went⟩ := Option.bind_eq_some_iff.mp same
    rw [converges.unique limit between reached] at went
    exact onward.unique limit other went

theorem map (converges : Converges course value) (change : α → β) :
    Converges (fun limit => (course limit).map change) (change value) := by
  refine (converges.bind (fun _ value => some (change value)) (.const _)).congr ?_
  intro limit
  exact Option.map_eq_bind

end Converges

variable {σ : Type} {first : Bus (Board σ)}

theorem Bus.Returns.start (returns : first.Returns) {tasks : List Task} {bus : Bus (Board σ)}
    (asks : first.Asks tasks bus) (name : LogicalName) :
    ∃ task asked, Converges (fun limit => Task.start limit name bus) (task, asked) ∧
      first.Asks (tasks ++ [task]) asked := by
  obtain ⟨least, returned⟩ := returns tasks bus asks name
  obtain ⟨⟨task, asked⟩, started⟩ := Option.isSome_iff_exists.mp returned
  refine ⟨task, asked, ⟨⟨least, fun limit above => Task.start_mono above started⟩, ?_⟩,
    .start asks started⟩
  exact fun limit other again => Task.start_unique started again

/-! ### The parts of an analysis -/

def Planned.ticket? {τ : Type} : Planned τ → Option τ
  | refused _ _ => none
  | repeated _ => none
  | pending _ ticket => some ticket

namespace Analyzer

def onBus (reading : Reading) (config : Config) (flag : Part σ Bool) (limit : Nat) :
    Analyzer (Bus (Board σ)) Task :=
  ⟨reading, config, .overBus limit flag⟩

variable (reading : Reading) (config : Config) (flag : Part σ Bool)

theorem plan_converges (returns : first.Returns) (chain : List LogicalName)
    (reference : Reference) {tasks : List Task} {ledger : Ledger (Bus (Board σ))}
    (asks : first.Asks tasks ledger.world) :
    ∃ entry after,
      Converges (fun limit => (onBus reading config flag limit).plan chain reference ledger)
        (entry, after) ∧
      first.Asks (tasks ++ [entry].filterMap Planned.ticket?) after.world := by
  have unasked : first.Asks (tasks ++ []) ledger.world := by
    rw [List.append_nil]
    exact asks
  unfold plan
  by_cases circular : chain.contains reference.name
  · refine ⟨_, ledger, (Converges.const _).congr fun _ => if_pos circular, unasked⟩
  · simp only [if_neg circular]
    by_cases again : (onBus reading config flag 0).isRepeated ledger reference.name
    · exact ⟨_, ledger, (Converges.const _).congr fun _ => if_pos again, unasked⟩
    · by_cases raised : flag.get ledger.world.state.client
      · exact ⟨_, ledger.claim reference.name, (Converges.const _).congr fun _ =>
          (if_neg again).trans (if_pos raised), unasked⟩
      · obtain ⟨task, asked, started, after⟩ := returns.start asks reference.name
        exact ⟨_, (ledger.claim reference.name).asked ⟨chain, reference.name⟩ asked,
          (started.map _).congr fun _ => (if_neg again).trans (if_neg raised), after⟩

theorem planAll_cons {ω τ : Type} (analyzer : Analyzer ω τ) (chain : List LogicalName)
    (reference : Reference) (rest : List Reference) (ledger : Ledger ω) :
    analyzer.planAll chain (reference :: rest) ledger =
      (analyzer.plan chain reference ledger).bind fun planned =>
        (analyzer.planAll chain rest planned.2).map fun others =>
          (planned.1 :: others.1, others.2) := by
  rw [planAll]
  cases analyzer.plan chain reference ledger with
  | none => rfl
  | some planned =>
      simp only [Option.bind_some]
      cases analyzer.planAll chain rest planned.2 with
      | none => rfl
      | some others => rfl

theorem planAll_converges (returns : first.Returns) (chain : List LogicalName)
    (references : List Reference) {tasks : List Task} {ledger : Ledger (Bus (Board σ))}
    (asks : first.Asks tasks ledger.world) :
    ∃ planned after,
      Converges (fun limit => (onBus reading config flag limit).planAll chain references ledger)
        (planned, after) ∧
      first.Asks (tasks ++ planned.filterMap Planned.ticket?) after.world := by
  induction references generalizing tasks ledger with
  | nil =>
      refine ⟨[], ledger, .const _, ?_⟩
      rw [List.filterMap_nil, List.append_nil]
      exact asks
  | cons reference rest ih =>
      obtain ⟨entry, between, plansOne, asksBetween⟩ :=
        plan_converges reading config flag returns chain reference asks
      obtain ⟨others, after, plansRest, asksAfter⟩ := ih asksBetween
      refine ⟨entry :: others, after, ?_, ?_⟩
      · refine (plansOne.bind _ ?_).congr fun limit => planAll_cons _ chain reference rest ledger
        exact plansRest.map fun others => (entry :: others.1, others.2)
      · rw [List.append_assoc, ← List.filterMap_append] at asksAfter
        exact asksAfter

theorem awaitAll_onBus (limit other : Nat) (planned : List (Planned Task))
    (ledger : Ledger (Bus (Board σ))) :
    (onBus reading config flag limit).awaitAll planned ledger =
      (onBus reading config flag other).awaitAll planned ledger := by
  induction planned generalizing ledger with
  | nil => rfl
  | cons entry rest ih =>
      cases entry with
      | refused reference refusal => simp only [awaitAll, ih]
      | repeated reference => simp only [awaitAll, ih]
      | pending reference task =>
          simp only [awaitAll, ih]
          rfl

theorem asks_awaitAll (limit : Nat) {planned : List (Planned Task)}
    {ledger : Ledger (Bus (Board σ))}
    (asks : first.Asks (planned.filterMap Planned.ticket?) ledger.world) :
    first.Asks [] ((onBus reading config flag limit).awaitAll planned ledger).2.world := by
  induction planned generalizing ledger with
  | nil => exact asks
  | cons entry rest ih =>
      cases entry with
      | refused reference refusal => exact ih asks
      | repeated reference => exact ih asks
      | pending reference task =>
          have closed : first.Asks (rest.filterMap Planned.ticket?)
              (ledger.moved (task.close ledger.world)).world := asks.await
          exact ih closed

theorem includeAll_broken {ω : Type} {reading : Reading}
    (follow : LogicalName → List Reference → Ledger ω → Option (Inclusions × Ledger ω))
    (reference : Reference) (rest : List Settled) (ledger : Ledger ω) {uri : String}
    {text : List Char} {error : ReadingError}
    (unreadable : reading.document uri text = .error error) :
    includeAll reading follow (.resolved reference text uri :: rest) ledger =
      (includeAll reading follow rest ledger).map fun others =>
        (.refused reference (.broken error) others.1, others.2) := by
  rw [includeAll]
  simp only [unreadable]

theorem includeAll_read {ω : Type} {reading : Reading}
    (follow : LogicalName → List Reference → Ledger ω → Option (Inclusions × Ledger ω))
    (reference : Reference) (rest : List Settled) (ledger : Ledger ω) {uri : String}
    {text : List Char} {document : Parse.ParsedDocument}
    (read : reading.document uri text = .ok document) :
    includeAll reading follow (.resolved reference text uri :: rest) ledger =
      (follow reference.name document.references ledger).bind fun below =>
        (includeAll reading follow rest below.2).map fun others =>
          (.included reference uri document.context below.1 others.1, others.2) := by
  rw [includeAll]
  simp only [read]
  cases follow reference.name document.references ledger with
  | none => rfl
  | some below => rfl

theorem includeAll_converges
    {follow : Nat → LogicalName → List Reference → Ledger (Bus (Board σ)) →
      Option (Inclusions × Ledger (Bus (Board σ)))}
    (followed : ∀ name references ledger, first.Asks [] ledger.world →
      ∃ below after, Converges (fun limit => follow limit name references ledger) (below, after) ∧
        first.Asks [] after.world)
    (settled : List Settled) {ledger : Ledger (Bus (Board σ))}
    (asks : first.Asks [] ledger.world) :
    ∃ tree after,
      Converges (fun limit => includeAll reading (follow limit) settled ledger) (tree, after) ∧
        first.Asks [] after.world := by
  induction settled generalizing ledger with
  | nil => exact ⟨.none, ledger, .const _, asks⟩
  | cons entry rest ih =>
      obtain ⟨others, after, includes, asksAfter⟩ := ih asks
      cases entry with
      | refused reference refusal => exact ⟨_, after, includes.map _, asksAfter⟩
      | repeated reference => exact ⟨_, after, includes.map _, asksAfter⟩
      | resolved reference text uri =>
          cases read : reading.document uri text with
          | error error =>
              exact ⟨_, after, (includes.map _).congr fun limit =>
                includeAll_broken _ _ rest ledger read, asksAfter⟩
          | ok document =>
              obtain ⟨below, between, follows, asksBetween⟩ :=
                followed reference.name document.references ledger asks
              obtain ⟨others, after, includes, asksAfter⟩ := ih asksBetween
              exact ⟨_, after, (follows.bind _ (includes.map _)).congr fun limit =>
                includeAll_read _ _ rest ledger read, asksAfter⟩

theorem explore_succ {ω τ : Type} (analyzer : Analyzer ω τ) (deeper : Nat)
    (chain : List LogicalName) (references : List Reference) (ledger : Ledger ω) :
    analyzer.explore (deeper + 1) chain references ledger =
      (analyzer.planAll chain references ledger).bind fun planned =>
        includeAll analyzer.reading (fun name => analyzer.explore deeper (chain ++ [name]))
          (analyzer.awaitAll planned.1 planned.2).1 (analyzer.awaitAll planned.1 planned.2).2 := by
  rw [explore]
  cases analyzer.planAll chain references ledger with
  | none => rfl
  | some planned => rfl

/-- With `deeper` levels left there is an end to every recursion, whatever the documents are that
the answers bring. -/
theorem explore_converges (returns : first.Returns) (deeper : Nat) (chain : List LogicalName)
    (references : List Reference) {ledger : Ledger (Bus (Board σ))}
    (asks : first.Asks [] ledger.world) :
    ∃ tree after,
      Converges (fun limit =>
        (onBus reading config flag limit).explore deeper chain references ledger) (tree, after) ∧
      first.Asks [] after.world := by
  induction deeper generalizing chain references ledger with
  | zero =>
      exact ⟨references.foldr (fun reference rest => .refused reference
        ((onBus reading config flag 0).refusalAtLimit chain reference) rest) .none, ledger,
        (Converges.const _).congr fun _ => rfl, asks⟩
  | succ deeper ih =>
      obtain ⟨planned, between, plans, asksBetween⟩ :=
        planAll_converges reading config flag returns chain references asks
      -- Only the plans and what lies below need a limit; the waits between are the same with each.
      have waited := asks_awaitAll reading config flag 0 asksBetween
      obtain ⟨tree, after, includes, asksAfter⟩ := includeAll_converges reading
        (fun name references ledger asks => ih (chain ++ [name]) references asks)
        ((onBus reading config flag 0).awaitAll planned between).1 waited
      refine ⟨tree, after, (plans.bind _ ?_).congr fun limit =>
        explore_succ _ deeper chain references ledger, asksAfter⟩
      simp only [awaitAll_onBus reading config flag _ 0]
      exact includes

/-- However much is answered, and whatever it is, an analysis comes to an end if each of its
requests does. -/
theorem run_converges (returns : first.Returns) (subject : Subject) :
    ∃ outcome, Converges (fun limit => (onBus reading config flag limit).run subject first)
      outcome := by
  have untouched : first.Asks [] (Ledger.start first).world := .nothing
  obtain ⟨tree, after, explores, _⟩ := explore_converges reading config flag returns
    config.maxDepth [] ((onBus reading config flag 0).roots subject) untouched
  refine ⟨_, (explores.map fun result =>
    ⟨(result.1.contexts (.ofTrail (rootDepth subject) [])).foldl Context.merge
      ((onBus reading config flag 0).base subject), result.2.requests, result.2.world⟩).congr
    fun limit => ?_⟩
  rw [run_eq_explore]
  cases subject with
  | document uri text => rfl
  | copybook name => rfl

end Analyzer

end CobolAnalysis
