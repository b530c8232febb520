/-
Where repetitions are dropped, each name is settled once.

In the order in which names are taken up, the first reference that passes the checks on
its way settles the name: it is asked for, or the analysis was cancelled. Each further
reference to the name is a repetition, which asks for nothing and adds nothing. This holds
whatever is answered and whenever the analysis is cancelled.
-/

import CobolAnalysis.Proofs.Analysis.Journal
import CobolAnalysis.Proofs.Analysis.Steps
import CobolAnalysis.Proofs.Analysis.Surfacing
import Mathlib.Data.List.Flatten
import Mathlib.Data.List.Nodup

namespace CobolAnalysis

open Parse (Reference)
open Scenario.Bench (Subject)

/-! ### What steps take up and ask for -/

theorem Step.asked_sublist (step : Step) : (step.asked.map Request.name).Sublist step.taken := by
  obtain ⟨request, move⟩ := step
  cases move with
  | barred => exact List.nil_sublist []
  | «repeated» => exact List.nil_sublist []
  | stopped => exact List.nil_sublist [request.name]
  | asked => exact List.Sublist.refl [request.name]

theorem asked_sublist_taken (steps : List Step) :
    ((steps.flatMap Step.asked).map Request.name).Sublist (steps.flatMap Step.taken) := by
  rw [List.map_flatMap]
  apply List.Sublist.flatMap_right
  exact fun step _ => step.asked_sublist

theorem Step.Fair.nodup {claimed : List LogicalName} {step : Step} (fair : step.Fair claimed)
    (distinct : claimed.Nodup) : (claimed ++ step.taken).Nodup := by
  obtain ⟨request, move⟩ := step
  cases move with
  | barred => simpa [taken] using distinct
  | «repeated» => simpa [taken] using distinct
  | stopped =>
      have longer := (List.nodup_concat claimed request.name).mpr ⟨fair, distinct⟩
      rwa [List.concat_eq_append] at longer
  | asked =>
      have longer := (List.nodup_concat claimed request.name).mpr ⟨fair, distinct⟩
      rwa [List.concat_eq_append] at longer

theorem Orderly.nodup {claimed : List LogicalName} {steps : List Step}
    (orderly : Orderly claimed steps) (distinct : claimed.Nodup) :
    (claimed ++ steps.flatMap Step.taken).Nodup := by
  induction steps generalizing claimed with
  | nil => simpa using distinct
  | cons step rest ih =>
      rw [List.flatMap_cons, ← List.append_assoc]
      exact ih orderly.2 (orderly.1.nodup distinct)

/-! ### What the fates of references say -/

namespace Fate

def barred : Fate → Bool
  | refused refusal => refusal.bars
  | repeated => false
  | accepted => false

def settles : Fate → Bool
  | refused refusal => !refusal.bars
  | repeated => false
  | accepted => true

def read : Fate → Bool
  | refused (.broken _) => true
  | refused _ => false
  | repeated => false
  | accepted => true

theorem settles_of_read {fate : Fate} (reads : fate.read = true) : fate.settles = true := by
  cases fate with
  | refused refusal =>
      cases refusal with
      | broken error => rfl
      | _ => cases reads
  | «repeated» => cases reads
  | accepted => rfl

theorem settles_of_barred {fate : Fate} (bars : fate.barred = true) : fate.settles = false := by
  cases fate with
  | refused refusal => exact congrArg not bars
  | «repeated» => rfl
  | accepted => cases bars

theorem not_barred_of_settles {fate : Fate} (settled : fate.settles = true) :
    fate.barred = false := by
  apply Bool.eq_false_iff.mpr
  intro bars
  rw [settles_of_barred bars] at settled
  cases settled

theorem eq_repeated_or_settles {fate : Fate} (free : fate.barred = false) :
    fate = .repeated ∨ fate.settles = true := by
  cases fate with
  | refused refusal => exact Or.inr (congrArg not free)
  | «repeated» => exact Or.inl rfl
  | accepted => exact Or.inr rfl

end Fate

namespace Entry

def name (entry : Entry) : LogicalName := entry.reference.name

def failure? (entry : Entry) : Option Failure :=
  match entry.fate with
  | .refused refusal => some ⟨entry.trail, entry.reference, refusal⟩
  | .repeated => none
  | .accepted => none

theorem Follows.cases {entry : Entry} {step : Step} (follows : entry.Follows step) :
    (entry.fate.barred = true ∧ step = ⟨entry.request, .barred⟩) ∨
      (entry.fate = .repeated ∧ step = ⟨entry.request, .repeated⟩) ∨
      (entry.fate = .refused .cancelled ∧ step = ⟨entry.request, .stopped⟩) ∨
      (entry.fate.settles = true ∧ step = ⟨entry.request, .asked⟩) := by
  obtain ⟨trail, reference, fate⟩ := entry
  obtain ⟨request, move⟩ := step
  obtain ⟨same, permits⟩ := follows
  cases same
  cases fate with
  | refused refusal =>
      cases move with
      | barred => exact Or.inl ⟨permits, rfl⟩
      | «repeated» => exact permits.elim
      | stopped => exact Or.inr (Or.inr (Or.inl ⟨congrArg Fate.refused permits, rfl⟩))
      | asked => exact Or.inr (Or.inr (Or.inr ⟨congrArg not permits, rfl⟩))
  | «repeated» =>
      cases move with
      | «repeated» => exact Or.inr (Or.inl ⟨rfl, rfl⟩)
      | _ => exact permits.elim
  | accepted =>
      cases move with
      | asked => exact Or.inr (Or.inr (Or.inr ⟨rfl, rfl⟩))
      | _ => exact permits.elim

theorem Follows.known_iff {entry : Entry} {step : Step} (follows : entry.Follows step)
    {claimed : List LogicalName} (fair : step.Fair claimed) (name : LogicalName) :
    name ∈ claimed ++ step.taken ↔
      name ∈ claimed ∨ (entry.fate.barred = false ∧ entry.name = name) := by
  have taking : ∀ {move : Move}, (Step.mk entry.request move).taken = [entry.name] →
      entry.fate.barred = false →
        (name ∈ claimed ++ (Step.mk entry.request move).taken ↔
          name ∈ claimed ∨ (entry.fate.barred = false ∧ entry.name = name)) := by
    intro move taken free
    rw [taken, List.mem_append, List.mem_singleton, and_iff_right free, eq_comm (a := name)]
  rcases follows.cases with ⟨bars, rfl⟩ | ⟨again, rfl⟩ | ⟨late, rfl⟩ | ⟨settles, rfl⟩
  · simp [Step.taken, bars]
  · have known : entry.name ∈ claimed := fair
    simp only [Step.taken, List.append_nil]
    constructor
    · exact Or.inl
    · rintro (old | ⟨_, rfl⟩)
      · exact old
      · exact known
  · apply taking rfl
    rw [late]
    rfl
  · exact taking rfl (Fate.not_barred_of_settles settles)

end Entry

variable {entries : List Entry} {steps : List Step}

theorem settled_eq_taken (follow : List.Forall₂ Entry.Follows entries steps) :
    (entries.filter fun entry => entry.fate.settles).map Entry.name =
      steps.flatMap Step.taken := by
  induction follow with
  | nil => rfl
  | cons follows others ih =>
      rw [List.filter_cons, List.flatMap_cons, ← ih]
      rcases follows.cases with ⟨bars, rfl⟩ | ⟨again, rfl⟩ | ⟨late, rfl⟩ | ⟨settles, rfl⟩
      · rw [Fate.settles_of_barred bars]
        rfl
      · rw [again]
        rfl
      · rw [late]
        rfl
      · rw [settles]
        rfl

theorem asked_sublist_settled (follow : List.Forall₂ Entry.Follows entries steps) :
    (steps.flatMap Step.asked).Sublist
      ((entries.filter fun entry => entry.fate.settles).map Entry.request) := by
  induction follow with
  | nil => exact List.Sublist.refl []
  | cons follows others ih =>
      rw [List.filter_cons, List.flatMap_cons]
      rcases follows.cases with ⟨bars, rfl⟩ | ⟨again, rfl⟩ | ⟨late, rfl⟩ | ⟨settles, rfl⟩
      · rw [Fate.settles_of_barred bars]
        exact ih
      · rw [again]
        exact ih
      · rw [late]
        exact ih.cons _
      · rw [settles]
        exact ih.cons_cons _

theorem mem_asked (follow : List.Forall₂ Entry.Follows entries steps) {entry : Entry}
    (member : entry ∈ entries) (settles : entry.fate.settles = true)
    (uncancelled : entry.fate ≠ .refused .cancelled) :
    entry.request ∈ steps.flatMap Step.asked := by
  induction follow with
  | nil => exact absurd member List.not_mem_nil
  | cons follows others ih =>
      rw [List.flatMap_cons]
      rcases List.mem_cons.mp member with rfl | later
      · rcases follows.cases with ⟨bars, _⟩ | ⟨again, _⟩ | ⟨late, _⟩ | ⟨_, rfl⟩
        · rw [Fate.settles_of_barred bars] at settles
          cases settles
        · rw [again] at settles
          cases settles
        · exact absurd late uncancelled
        · exact List.mem_append_left _ (List.mem_singleton_self _)
      · exact List.mem_append_right _ (ih later)

theorem Orderly.repeated_iff {claimed : List LogicalName} (orderly : Orderly claimed steps)
    {before after : List Entry} {entry : Entry}
    (follow : List.Forall₂ Entry.Follows (before ++ entry :: after) steps)
    (free : entry.fate.barred = false) :
    entry.fate = .repeated ↔ entry.name ∈ claimed ∨
      ∃ earlier ∈ before, earlier.fate.barred = false ∧ earlier.name = entry.name := by
  induction before generalizing claimed steps with
  | nil =>
      cases follow with
      | cons follows others =>
          rcases follows.cases with ⟨bars, rfl⟩ | ⟨again, rfl⟩ | ⟨late, rfl⟩ | ⟨settles, rfl⟩
          · rw [free] at bars
            cases bars
          · exact iff_of_true again (Or.inl orderly.1)
          · apply iff_of_false
            · rw [late]
              exact Fate.noConfusion
            · have fresh : entry.name ∉ claimed := orderly.1
              simpa using fresh
          · apply iff_of_false
            · intro again
              rw [again] at settles
              cases settles
            · have fresh : entry.name ∉ claimed := orderly.1
              simpa using fresh
  | cons first before ih =>
      cases follow with
      | cons follows others =>
          rw [ih orderly.2 others, follows.known_iff orderly.1]
          simp [or_assoc]

/-! ### References of inclusions -/

namespace Inclusions

theorem mem_inOrder_included {trail : List Reference} {reference : Reference} {uri : String}
    {own : Context} {below rest : Inclusions} {entry : Entry} :
    entry ∈ inOrder trail (.included reference uri own below rest) ↔
      entry = ⟨trail, reference, .accepted⟩ ∨ entry ∈ below.inOrder (trail ++ [reference]) ∨
        entry ∈ rest.inOrder trail := by
  simp only [inOrder, level, deeper, List.mem_append, List.mem_cons]
  tauto

theorem failures_perm (tree : Inclusions) (trail : List Reference) :
    (tree.failures trail).Perm ((tree.inOrder trail).filterMap Entry.failure?) := by
  induction tree generalizing trail with
  | none => exact List.Perm.refl []
  | refused reference refusal rest ih => exact (ih trail).cons _
  | «repeated» reference rest ih => exact ih trail
  | included reference uri own below rest ihBelow ih =>
      -- The rest of this document comes before what lies below, and not after it.
      have together := (ihBelow (trail ++ [reference])).append (ih trail)
      refine together.trans ?_
      simp only [inOrder, level, deeper, List.filterMap_append, List.filterMap_cons,
        Entry.failure?]
      exact List.perm_append_comm_assoc _ _ _

/-- The inclusions as if nothing had been asked for again. -/
def withoutRepetitions : Inclusions → Inclusions
  | none => none
  | refused reference refusal rest => refused reference refusal (withoutRepetitions rest)
  | repeated _ rest => withoutRepetitions rest
  | included reference uri own below rest =>
      included reference uri own (withoutRepetitions below) (withoutRepetitions rest)

theorem contexts_withoutRepetitions (tree : Inclusions) (site : Site) :
    tree.withoutRepetitions.contexts site = tree.contexts site := by
  induction tree generalizing site with
  | none => rfl
  | refused reference refusal rest ih => exact congrArg (_ :: ·) (ih site)
  | «repeated» reference rest ih => exact ih site
  | included reference uri own below rest ihBelow ih =>
      simp only [withoutRepetitions, contexts, ihBelow, ih]

end Inclusions

theorem Refusal.Warranted.admits_iff {reading : Reading} {config : Config}
    {chain : List LogicalName} {name : LogicalName} {refusal : Refusal}
    (warranted : refusal.Warranted reading config chain name) :
    Admits config chain name ↔ refusal.bars = false := by
  cases refusal with
  | circular path =>
      exact iff_of_false (fun admitted => admitted.fresh warranted.1) Bool.noConfusion
  | tooDeep limit =>
      refine iff_of_false (fun admitted => ?_) Bool.noConfusion
      exact Nat.ne_of_lt admitted.room warranted.2.1
  | cancelled => exact iff_of_true warranted rfl
  | notFound => exact iff_of_true warranted rfl
  | timedOut timeout => exact iff_of_true warranted.1 rfl
  | broken error => exact iff_of_true warranted.1 rfl

/-- There is cause for what became of a reference at the end of `chain`. -/
def Fate.Warranted (reading : Reading) (config : Config) (chain : List LogicalName)
    (name : LogicalName) : Fate → Prop
  | refused refusal => refusal.Warranted reading config chain name
  | repeated => config.dedup = .shared ∧ Admits config chain name
  | accepted => Admits config chain name

theorem Fate.Warranted.admits_iff {reading : Reading} {config : Config}
    {chain : List LogicalName} {name : LogicalName} {fate : Fate}
    (warranted : fate.Warranted reading config chain name) :
    Admits config chain name ↔ fate.barred = false := by
  cases fate with
  | refused refusal => exact Refusal.Warranted.admits_iff warranted
  | «repeated» => exact iff_of_true warranted.2 rfl
  | accepted => exact iff_of_true warranted rfl

/-- For every reference there is cause for what became of it, and whatever holds of the chain at the
start, and goes on to hold when an admitted name is added, holds of the chain it stands at. -/
theorem Accounts.of_mem_inOrder {reading : Reading} {config : Config}
    (holds : List LogicalName → Prop)
    (keeps : ∀ chain name, Admits config chain name → holds chain → holds (chain ++ [name]))
    {chain : List LogicalName} {references : List Reference} {tree : Inclusions}
    (accounts : Accounts reading config chain references tree) (held : holds chain)
    {trail : List Reference} (same : trail.map Reference.name = chain) {entry : Entry}
    (member : entry ∈ tree.inOrder trail) :
    holds entry.request.chain ∧
      entry.fate.Warranted reading config entry.request.chain entry.name := by
  induction accounts generalizing trail with
  | none chain => exact absurd member List.not_mem_nil
  | refused warranted others ih =>
      rcases List.mem_cons.mp member with rfl | later
      · rw [← same] at held warranted
        exact ⟨held, warranted⟩
      · exact ih held same later
  | «repeated» shared admitted others ih =>
      rcases List.mem_cons.mp member with rfl | later
      · rw [← same] at held admitted
        exact ⟨held, shared, admitted⟩
      · exact ih held same later
  | @included chain references below rest reference uri text document admitted read inside others
      ihInside ih =>
      rcases Inclusions.mem_inOrder_included.mp member with rfl | further | later
      · rw [← same] at held admitted
        exact ⟨held, admitted⟩
      · apply ihInside (keeps chain reference.name admitted held) _ further
        rw [List.map_append, same]
        rfl
      · exact ih held same later

theorem Accounts.admits_iff {reading : Reading} {config : Config} {chain : List LogicalName}
    {references : List Reference} {tree : Inclusions}
    (accounts : Accounts reading config chain references tree) {trail : List Reference}
    (same : trail.map Reference.name = chain) {entry : Entry}
    (member : entry ∈ tree.inOrder trail) :
    Admits config entry.request.chain entry.request.name ↔ entry.fate.barred = false := by
  have sound := accounts.of_mem_inOrder (fun _ => True) (fun _ _ _ _ => trivial) trivial same member
  exact sound.2.admits_iff

/-! ### Whole analyses -/

/-- Each name is settled once, at the first reference that passes its checks, and asked for there
unless the analysis was cancelled. -/
structure Inclusions.SettlesOnce (tree : Inclusions) (config : Config) (requests : List Request) :
    Prop where
  asked_once : (requests.map Request.name).Nodup
  read_once : (((tree.inOrder []).filter fun entry => entry.fate.read).map Entry.name).Nodup
  settled_once : (((tree.inOrder []).filter fun entry => entry.fate.settles).map Entry.name).Nodup
  asked_where_settled : requests.Sublist
    (((tree.inOrder []).filter fun entry => entry.fate.settles).map Entry.request)
  asked_unless_cancelled : ∀ entry ∈ tree.inOrder [], entry.fate.settles = true →
    entry.fate ≠ .refused .cancelled → entry.request ∈ requests
  settled_first : ∀ before entry after, tree.inOrder [] = before ++ entry :: after →
    Admits config entry.request.chain entry.name →
      (∀ earlier ∈ before, Admits config earlier.request.chain earlier.name →
        earlier.name ≠ entry.name) → entry.fate.settles = true
  repeated_later : ∀ before entry after, tree.inOrder [] = before ++ entry :: after →
    Admits config entry.request.chain entry.name →
      (∃ earlier ∈ before, Admits config earlier.request.chain earlier.name ∧
        earlier.name = entry.name) → entry.fate = .repeated

theorem Accounts.settlesOnce {reading : Reading} {config : Config} {references : List Reference}
    {tree : Inclusions} (accounts : Accounts reading config [] references tree)
    {steps : List Step} (follow : List.Forall₂ Entry.Follows (tree.inOrder []) steps)
    {ω : Type} {world : ω} {ledger : Ledger ω}
    (advances : (Ledger.start world).Advances steps ledger) :
    tree.SettlesOnce config ledger.requests := by
  have requests : ledger.requests = steps.flatMap Step.asked := advances.requests
  have distinct : (steps.flatMap Step.taken).Nodup := advances.orderly.nodup List.nodup_nil
  have settled := settled_eq_taken follow
  have admits : ∀ entry ∈ tree.inOrder [],
      (Admits config entry.request.chain entry.name ↔ entry.fate.barred = false) :=
    fun entry member => accounts.admits_iff rfl member
  have repeated : ∀ before entry after, tree.inOrder [] = before ++ entry :: after →
      Admits config entry.request.chain entry.name →
        entry.fate.barred = false ∧ (entry.fate = .repeated ↔
          ∃ earlier ∈ before, Admits config earlier.request.chain earlier.name ∧
            earlier.name = entry.name) := by
    intro before entry after split admitted
    have here : entry ∈ tree.inOrder [] := by simp [split]
    have free := (admits entry here).mp admitted
    have start : (Ledger.start world).claimed = [] := rfl
    refine ⟨free, (advances.orderly.repeated_iff (split ▸ follow) free).trans ?_⟩
    rw [start, or_iff_right List.not_mem_nil]
    refine exists_congr fun earlier => and_congr_right fun member => and_congr_left fun _ => ?_
    exact (admits earlier (by simp [split, member])).symm
  constructor
  · rw [requests]
    exact distinct.sublist (asked_sublist_taken steps)
  · have among := List.monotone_filter_right (tree.inOrder [])
      (fun (entry : Entry) (reads : entry.fate.read = true) => Fate.settles_of_read reads)
    rw [← settled] at distinct
    exact distinct.sublist (among.map Entry.name)
  · rw [settled]
    exact distinct
  · rw [requests]
    exact asked_sublist_settled follow
  · intro entry member settles uncancelled
    rw [requests]
    exact mem_asked follow member settles uncancelled
  · intro before entry after split admitted first
    obtain ⟨free, again⟩ := repeated before entry after split admitted
    refine (Fate.eq_repeated_or_settles free).resolve_left fun same => ?_
    obtain ⟨earlier, member, passed, named⟩ := again.mp same
    exact first earlier member passed named
  · intro before entry after split admitted known
    exact (repeated before entry after split admitted).2.mpr known

theorem Analyzer.run_journaled {ω τ : Type} (analyzer : Analyzer ω τ) (subject : Subject)
    (world : ω) :
    analyzer.journaled.run subject (world, []) = (analyzer.run subject world).map fun outcome =>
      ⟨outcome.context, outcome.requests, outcome.world, outcome.requests.map Request.name⟩ := by
  have sameRoots : analyzer.journaled.roots subject = analyzer.roots subject := by
    cases subject with
    | copybook name => rfl
    | document uri text => rfl
  have sameBase : analyzer.journaled.base subject = analyzer.base subject := by
    cases subject with
    | copybook name => rfl
    | document uri text => rfl
  have explored : analyzer.journaled.explore analyzer.journaled.config.maxDepth []
      (analyzer.roots subject) (.start (world, [])) = _ :=
    analyzer.explore_journaled analyzer.config.maxDepth [] (analyzer.roots subject) (.start world)
  rw [run_eq_explore, run_eq_explore, sameRoots, sameBase, explored, Option.map_map,
    Option.map_map]
  rfl

/-- Whatever is answered and whenever the analysis is cancelled, where repetitions are dropped each
name is settled once. What fails there is reported as any failure is, and no repetition has a part
in the result. -/
theorem names_settled_once {ω τ : Type} (analyzer : Analyzer ω τ)
    (shared : analyzer.config.dedup = .shared) (subject : Subject) (world : ω)
    (outcome : Outcome ω) (ran : analyzer.run subject world = some outcome) :
    ∃ tree ledger,
      analyzer.explore analyzer.config.maxDepth [] (analyzer.roots subject) (.start world) =
          some (tree, ledger) ∧
        Accounts analyzer.reading analyzer.config [] (analyzer.roots subject) tree ∧
        tree.SettlesOnce analyzer.config outcome.requests ∧
        (analyzer.journaled.run subject (world, [])).map (fun watched => watched.world.2) =
          some (outcome.requests.map Request.name) ∧
        outcome.context =
          (tree.withoutRepetitions.contexts (.ofTrail (rootDepth subject) [])).foldl
            Context.merge (analyzer.base subject) ∧
        (tree.failures []).Perm ((tree.inOrder []).filterMap Entry.failure?) ∧
        ∀ failure ∈ tree.failures [],
          failure.diagnostics (rootDepth subject) <:+: outcome.context.diagnostics := by
  have course := analyzer.run_eq_explore subject world
  obtain ⟨⟨tree, ledger⟩, explored, same⟩ := Option.map_eq_some_iff.mp (course.symm.trans ran)
  have accounts := Analyzer.explore_accounts (Nat.zero_add _) explored
  have fromRoot : analyzer.explore analyzer.config.maxDepth
      (([] : List Reference).map Reference.name) (analyzer.roots subject) (.start world) =
        some (tree, ledger) := explored
  obtain ⟨steps, follow, advances⟩ := Analyzer.explore_steps shared fromRoot
  have context : outcome.context = (tree.contexts (.ofTrail (rootDepth subject) [])).foldl
      Context.merge (analyzer.base subject) := congrArg Outcome.context same.symm
  have requests : outcome.requests = ledger.requests := congrArg Outcome.requests same.symm
  refine ⟨tree, ledger, explored, accounts, ?_, ?_, ?_, tree.failures_perm [], ?_⟩
  · rw [requests]
    exact accounts.settlesOnce follow advances
  · rw [Analyzer.run_journaled, ran]
    rfl
  · rw [tree.contexts_withoutRepetitions]
    exact context
  · intro failure member
    rw [context, Context.diagnostics_foldl_merge]
    exact (tree.diagnostics_infix (rootDepth_le_one subject) member).trans
      (List.suffix_append _ _).isInfix

section Sample

open Scenario

/-- The request for the inner copybook cancels the analysis, so that the silent one is taken up and
not asked for. The reference to the inner one in the outer one is a repetition. -/
theorem sample_names_settled_once :
    ∃ outcome,
      Analyzer.run ⟨.standard .standard .fixed ⟨true, true⟩, .standard, Bench.exchange⟩
          (.document "root" Sample.text)
          (Bench.withMemory { Script.empty with cancelOn := [Sample.inner.text] } Sample.stock) =
        some outcome ∧
      outcome.requests.map Request.name = [Sample.outer, Sample.inner] ∧
      outcome.context.diagnostics.map
          (fun diagnostic => (diagnostic.location.uri, diagnostic.code)) =
        [("copybook:///A", some Diagnostic.Code.circularCopybook),
          ("root", some Diagnostic.Code.circularCopybook),
          ("copybook:///B", some Diagnostic.Code.copybookCancelled),
          ("root", some Diagnostic.Code.copybookCancelled)] ∧
      ∃ tree : Inclusions, tree.SettlesOnce .standard outcome.requests ∧
        ∀ failure ∈ tree.failures [],
          failure.diagnostics 0 <:+: outcome.context.diagnostics := by
  have evaluated : (Analyzer.run
      ⟨.standard .standard .fixed ⟨true, true⟩, .standard, Bench.exchange⟩
      (.document "root" Sample.text)
      (Bench.withMemory { Script.empty with cancelOn := [Sample.inner.text] } Sample.stock)).map
        (fun outcome => (outcome.requests.map Request.name, outcome.context.diagnostics.map
          (fun diagnostic => (diagnostic.location.uri, diagnostic.code)))) =
      some ([Sample.outer, Sample.inner],
        [("copybook:///A", some Diagnostic.Code.circularCopybook),
          ("root", some Diagnostic.Code.circularCopybook),
          ("copybook:///B", some Diagnostic.Code.copybookCancelled),
          ("root", some Diagnostic.Code.copybookCancelled)]) := by
    decide +kernel
  obtain ⟨outcome, ran, same⟩ := Option.map_eq_some_iff.mp evaluated
  obtain ⟨tree, _, _, _, once, _, _, _, reported⟩ :=
    names_settled_once _ rfl _ _ outcome ran
  exact ⟨outcome, ran, congrArg Prod.fst same, congrArg Prod.snd same, tree, once, reported⟩

end Sample

end CobolAnalysis
