/-
Analyses that are cancelled on the way.

The flag that cancels an analysis is raised before it or by an observer while some request
is being delivered, and no one lowers it again. From then on nothing is asked for, but what
was asked for is still waited for, and an answer that has come is used as ever. The result
keeps all that the root document says by itself, and says of every reference that was
given up that it was.
-/

import CobolAnalysis.Proofs.Analysis.Turns
import CobolAnalysis.Proofs.Resolution.Waiting

namespace CobolAnalysis

open Parse (Reference)
open Scenario.Bench (Subject)

variable {σ : Type}

/-! ### The flag -/

def Rule.oneWay (flag : Part σ Bool) : Rule σ where
  allows := fun _ state written => flag.get state = true → flag.get written = true
  free := fun _ => True

def Board.flag (flag : Part σ Bool) : Part (Board σ) Bool := flag.within Board.clientPart

theorem Task.listener_heeds_oneWay (flag : Part σ Bool) (name : LogicalName) (id : Nat)
    (event : Event) (state : Board σ) :
    (listener name id event).Heeds (.oneWay (Board.flag flag)) (some id) state := by
  unfold listener
  cases event with
  | scan asked => trivial
  | fetch result =>
      by_cases own : result.name = name
      · simp only [if_pos own]
        exact ⟨fun raised => raised, trivial⟩
      · simp only [if_neg own]
        trivial

/-- Everyone on the bus leaves the flag raised once it is raised. -/
def Bus.Honours (flag : Part σ Bool) (bus : Bus (Board σ)) : Prop :=
  (Moment.between bus).Heeds (.oneWay (Board.flag flag))

def Bus.Raised (flag : Part σ Bool) (bus : Bus (Board σ)) : Prop :=
  flag.get bus.state.client = true

theorem Bus.Honours.start {flag : Part σ Bool} {limit : Nat} {name : LogicalName}
    {bus asked : Bus (Board σ)} {task : Task} (honours : bus.Honours flag)
    (started : Task.start limit name bus = some (task, asked)) :
    asked.Honours flag ∧ (bus.Raised flag → asked.Raised flag) := by
  obtain ⟨marks, run⟩ :=
    Task.start_run (Moment.Lawful (.oneWay (Board.flag flag))) started none
  have listening : (Task.listening name (fun _ => .done) bus none []).Heeds
      (.oneWay (Board.flag flag)) := by
    refine ⟨fun registration member => ?_, honours.pending, ?_⟩
    · rcases List.mem_append.mp member with old | new
      · exact honours.registered registration old
      · rw [List.mem_singleton.mp new]
        exact Task.listener_heeds_oneWay flag name bus.registry.nextId
    · rintro _ ⟨⟩
      trivial
  have stays : ∀ runner state written, (Rule.oneWay (Board.flag flag)).allows runner state written →
      (Board.flag flag).get state = true → (Board.flag flag).get written = true :=
    fun _ _ _ allowed => allowed
  exact ⟨run.heeds listening fun _ _ _ => trivial, fun raised =>
    run.keeps stays listening (fun _ _ _ => trivial) raised⟩

theorem Bus.Honours.close {flag : Part σ Bool} {bus : Bus (Board σ)} (honours : bus.Honours flag)
    (task : Task) : (task.close bus).Honours flag := by
  refine ⟨fun registration member => ?_, honours.pending, fun _ none => nomatch none⟩
  exact honours.registered registration (List.mem_filter.mp member).1

theorem keeps_honours (limit : Nat) (flag : Part σ Bool) :
    (Exchange.overBus limit flag).Keeps (Bus.Honours flag) where
  request := fun _ _ _ _ started honours => (honours.start started).1
  await := fun task _ honours => honours.close task

theorem keeps_raised (limit : Nat) (flag : Part σ Bool) :
    (Exchange.overBus limit flag).Keeps fun bus => bus.Honours flag ∧ bus.Raised flag where
  request := fun _ _ _ _ started held =>
    ⟨(held.1.start started).1, (held.1.start started).2 held.2⟩
  await := fun task _ held => ⟨held.1.close task, held.2⟩

/-! ### One turn of a cancelled analysis -/

/-- What a cancellation does to an analysis, turn by turn: it puts an end to asking, and to waiting
in vain, but an answer that has come is used. -/
structure Analyzer.StopsAsking (analyzer : Analyzer (Bus (Board σ)) Task) (flag : Part σ Bool)
    (turns : List (Turn (Bus (Board σ)) Task)) : Prop where
  stays : turns.Pairwise fun earlier later =>
    earlier.after.world.Raised flag → later.before.world.Raised flag
  silent : ∀ turn ∈ turns, turn.before.world.Raised flag →
    turn.asked = [] ∧ turn.after.world.Raised flag
  grafted : ∀ turn ∈ turns, ∀ task result content document, turn.deed = .awaited task →
    task.answer? turn.before.world = some result → result.found = true →
    result.content = some content →
    analyzer.reading.document (result.uri.getD turn.reference.name.uri) content = .ok document →
      turn.brought? analyzer =
        some ⟨turn.reference.name, result.uri.getD turn.reference.name.uri, document.context⟩
  broken : ∀ turn ∈ turns, ∀ task result content error, turn.deed = .awaited task →
    task.answer? turn.before.world = some result → result.found = true →
    result.content = some content →
    analyzer.reading.document (result.uri.getD turn.reference.name.uri) content = .error error →
      turn.failure? analyzer = some ⟨turn.trail, turn.reference, .broken error⟩
  negative : ∀ turn ∈ turns, ∀ task result, turn.deed = .awaited task →
    task.answer? turn.before.world = some result →
    result.found = false ∨ result.content = none →
      turn.failure? analyzer = some ⟨turn.trail, turn.reference, .notFound⟩
  unanswered : ∀ turn ∈ turns, ∀ task, turn.deed = .awaited task →
    task.answer? turn.before.world = none → turn.before.world.Raised flag →
      turn.failure? analyzer = some ⟨turn.trail, turn.reference, .cancelled⟩
  late : ∀ turn ∈ turns, turn.met?.isSome → turn.before.world.Raised flag →
    Admits analyzer.config turn.request.chain turn.request.name →
    ¬(analyzer.config.dedup = .shared ∧ turn.request.name ∈ turn.before.claimed) →
      turn.failure? analyzer = some ⟨turn.trail, turn.reference, .cancelled⟩

namespace Analyzer

variable {reading : Reading} {config : Config} {limit : Nat} {flag : Part σ Bool}
  {turn : Turn (Bus (Board σ)) Task} {turns : List (Turn (Bus (Board σ)) Task)}

theorem await_of_answer (limit : Nat) (flag : Part σ Bool) {task : Task}
    {world : Bus (Board σ)} {result : FetchResult}
    (answered : task.answer? world = some result) (found : result.found = true)
    {content : List Char} (present : result.content = some content) :
    ((Exchange.overBus limit flag).await task world).1 = .resolved content result.uri := by
  change Resolution.ofAnswer (task.answer? world) _ = _
  rw [answered, Resolution.ofAnswer_of_found found present]

theorem Makes.silent
    (makes : (Analyzer.mk reading config (.overBus limit flag)).Makes turn)
    (raised : turn.before.world.Raised flag) : turn.asked = [] := by
  cases makes with
  | asked admitted first going requested =>
      have lowered : ¬Bus.Raised flag _ := Bool.eq_false_iff.mp going
      exact absurd raised lowered
  | _ => rfl

theorem Makes.late {ω τ : Type} {analyzer : Analyzer ω τ} {turn : Turn ω τ}
    (makes : analyzer.Makes turn) (meets : turn.met?.isSome)
    (cancelled : analyzer.exchange.cancelled.get turn.before.world = true)
    (admitted : Admits analyzer.config turn.request.chain turn.request.name)
    (new : ¬(analyzer.config.dedup = .shared ∧ turn.request.name ∈ turn.before.claimed)) :
    turn.failure? analyzer = some ⟨turn.trail, turn.reference, .cancelled⟩ := by
  cases makes with
  | barred bars warranted =>
      rw [warranted.admits_iff.mp admitted] at bars
      cases bars
  | «repeated» _ again =>
      unfold isRepeated at again
      rw [Bool.and_eq_true, beq_iff_eq, List.contains_iff_mem] at again
      exact absurd again new
  | stopped _ first _ => rfl
  | asked _ first going requested =>
      rw [going] at cancelled
      cases cancelled
  | awaited => cases meets

theorem Passes.stopsAsking {ledger last : Ledger (Bus (Board σ))}
    (passes : (Analyzer.mk reading config (.overBus limit flag)).Passes ledger turns last)
    (honours : ledger.world.Honours flag) :
    (Analyzer.mk reading config (.overBus limit flag)).StopsAsking flag turns := by
  -- Everyone honours the flag in the world before each turn, so none of them loses it.
  have makes := passes.makes
  have honoured := passes.keeps (keeps_honours limit flag) honours
  constructor
  · refine List.Pairwise.imp_of_mem ?_ (passes.pairwise (keeps_raised limit flag))
    intro earlier later before _ stays raised
    exact (stays ⟨(honoured earlier before).2, raised⟩).2
  · intro turn member raised
    refine ⟨(makes turn member).silent raised, ?_⟩
    have held : turn.before.world.Honours flag ∧ turn.before.world.Raised flag :=
      ⟨(honoured turn member).1, raised⟩
    exact ((makes turn member).keeps (keeps_raised limit flag) held).2
  · intro turn _ task result content document awaited answered found present read
    have gives := await_of_answer limit flag answered found present
    simp only [Turn.brought?, awaited, gives, settle, read]
  · intro turn _ task result content error awaited answered found present unreadable
    have gives := await_of_answer limit flag answered found present
    simp only [Turn.failure?, awaited, gives, settle, unreadable]
  · intro turn _ task result awaited answered negative
    have gives : ((Exchange.overBus limit flag).await task turn.before.world).1 = .notFound := by
      change Resolution.ofAnswer (task.answer? turn.before.world) _ = _
      rw [answered, Resolution.ofAnswer_of_negative negative]
    simp only [Turn.failure?, awaited, gives, settle]
  · intro turn _ task awaited unanswered raised
    have gives : ((Exchange.overBus limit flag).await task turn.before.world).1 = .cancelled := by
      change Resolution.ofAnswer (task.answer? turn.before.world) (flag.get _) = _
      rw [unanswered, raised]
      rfl
    simp only [Turn.failure?, awaited, gives, settle]
  · intro turn member
    exact (makes turn member).late

end Analyzer

/-! ### Whole analyses -/

theorem Refusal.code_eq_cancelled_iff (refusal : Refusal) :
    refusal.code = Diagnostic.Code.copybookCancelled ↔ refusal = .cancelled := by
  cases refusal with
  | cancelled => exact iff_of_true rfl rfl
  | _ => simp [code, Diagnostic.Code.copybookCancelled, Diagnostic.Code.circularCopybook,
      Diagnostic.Code.copybookTooDeep, Diagnostic.Code.copybookNotFound,
      Diagnostic.Code.copybookTimedOut, Diagnostic.Code.copybookBroken]

theorem Failure.says_cancelled {failure : Failure} (cancelled : failure.refusal = .cancelled)
    (rootDepth : Nat) : ∀ diagnostic ∈ failure.diagnostics rootDepth,
      diagnostic.severity = .info ∧ diagnostic.code = some Diagnostic.Code.copybookCancelled := by
  obtain ⟨trail, reference, refusal⟩ := failure
  cases cancelled
  unfold Failure.diagnostics
  split
  · exact List.forall_mem_singleton.mpr ⟨rfl, rfl⟩
  · exact List.forall_mem_cons.mpr ⟨⟨rfl, rfl⟩, List.forall_mem_singleton.mpr ⟨rfl, rfl⟩⟩

/-- Whenever an analysis is cancelled, before it or while a request is being delivered, it asks for
nothing more, but loses no answer that has come. Every reference that it gives up is reported to
have been cancelled, once and at its place, and the result is complete otherwise. -/
theorem cancellation_keeps_answers (reading : Reading) (config : Config) (limit : Nat)
    (flag : Part σ Bool) (subject : Subject) {world : Bus (Board σ)}
    (honours : world.Honours flag) {outcome : Outcome (Bus (Board σ))}
    (ran : Analyzer.run ⟨reading, config, .overBus limit flag⟩ subject world = some outcome) :
    let analyzer : Analyzer (Bus (Board σ)) Task := ⟨reading, config, .overBus limit flag⟩
    ∃ tree turns,
      analyzer.Recounts subject world tree turns outcome ∧ analyzer.StopsAsking flag turns ∧
        (world.Raised flag → outcome.requests = []) ∧
        (∀ failure ∈ tree.failures [], failure.refusal = .cancelled →
          ∀ diagnostic ∈ failure.diagnostics (rootDepth subject), diagnostic.severity = .info ∧
            diagnostic.code = some Diagnostic.Code.copybookCancelled) ∧
        (reading.Reserves Diagnostic.Code.copybookCancelled →
          outcome.context.diagnostics.filter
              (fun diagnostic => diagnostic.code = some Diagnostic.Code.copybookCancelled) =
            ((tree.failures []).filter fun failure => failure.refusal = .cancelled).flatMap
              (Failure.diagnostics (rootDepth subject))) := by
  intro analyzer
  obtain ⟨tree, turns, recounts, context⟩ := Analyzer.run_recounts ran
  obtain ⟨ledger, _, passes⟩ := recounts.passes
  refine ⟨tree, turns, recounts, passes.stopsAsking honours, ?_, ?_, ?_⟩
  · intro raised
    have held := passes.keeps (keeps_raised limit flag) ⟨honours, raised⟩
    rw [recounts.requests, List.flatMap_eq_nil_iff]
    intro turn member
    exact ((passes.stopsAsking honours).silent turn member (held turn member).1.2).1
  · intro failure _ cancelled
    exact Failure.says_cancelled cancelled (rootDepth subject)
  · intro reserved
    have codes : ∀ code ∈ [Diagnostic.Code.copybookCancelled], analyzer.reading.Reserves code :=
      List.forall_mem_singleton.mpr reserved
    have filtered := Analyzer.filter_outcome codes (by decide) recounts.accounts
    rw [← context, Diagnostic.among_singleton] at filtered
    refine filtered.trans (congrArg (List.flatMap _) (List.filter_congr fun failure _ => ?_))
    rw [Bool.eq_iff_iff, List.contains_iff_mem, List.mem_singleton, decide_eq_true_iff]
    exact failure.refusal.code_eq_cancelled_iff

namespace Scenario

theorem Script.respond_heeds (id : Nat) (event : Event) (script : Script) :
    (Script.respond id event).Heeds ⟨fun _ state written =>
      state.cancelled = true → written.cancelled = true, fun _ => True⟩ (some id) script := by
  cases event with
  | fetch result => trivial
  | scan name =>
      constructor
      · intro raised
        unfold onRequest
        split
        · rfl
        · exact raised
      · change (reply name (onRequest name script)).Heeds _ _ _
        unfold reply
        split
        · trivial
        · exact Procedure.Heeds.publishAll _ _ _

theorem Bench.honours_withMemory (script : Script) (memory : Provider.Memory) :
    (withMemory script memory).Honours cancelledPart := by
  refine ⟨?_, List.forall_mem_nil _, fun _ none => nomatch none⟩
  have onBoard : ∀ (procedure : Procedure (Bench Provider.Memory)) (id : Nat) board,
      procedure.Heeds (.oneWay cancelledPart) (some id) board.client →
        (procedure.within Board.clientPart).Heeds (.oneWay (Board.flag cancelledPart)) (some id)
          board := fun _ _ _ heeds =>
    Procedure.Heeds.within Board.clientPart (fun _ _ _ stays => stays) (fun _ => Iff.rfl) heeds
  refine List.forall_mem_cons.mpr ⟨fun event board => onBoard _ _ board ?_,
    List.forall_mem_singleton.mpr fun event board => onBoard _ _ board ?_⟩
  · exact Procedure.Heeds.within scriptPart (fun _ _ _ stays => stays) (fun _ => Iff.rfl)
      (Script.respond_heeds 0 event board.client.script)
  · have answers : (Provider.Memory.respond 1 event).Heeds
        ⟨fun _ _ _ => True, fun _ => True⟩ (some 1) board.client.provider := by
      cases event with
      | fetch result => trivial
      | scan name => exact ⟨trivial, Procedure.Heeds.publishAll _ _ _⟩
    exact Procedure.Heeds.within providerPart (fun _ _ _ _ raised => raised) (fun _ => Iff.rfl)
      answers

namespace Sample

def silentFirst : List Char := "       COPY C.\n       COPY B.\n       COPY A.".toList

def cancelling : Bus (Board (Bench Provider.Memory)) :=
  Bench.withMemory { Script.empty with cancelOn := [inner.text] } stock

end Sample

end Scenario

section Sample

open Scenario

/-- The second of three requests cancels the analysis. Its own answer is used, the first, which is
without an answer, is given up, and the third is not made. -/
theorem sample_cancellation_keeps_answers :
    ∃ outcome,
      Sample.analyzer.run (.document "root" Sample.silentFirst) Sample.cancelling =
        some outcome ∧
      outcome.requests.map Request.name = [Sample.silent, Sample.inner] ∧
      outcome.context.definedNames .dataItem = ["ITEM-B".toList] ∧
      outcome.context.diagnostics.map (fun diagnostic => diagnostic.code) =
        [some Diagnostic.Code.copybookCancelled, some Diagnostic.Code.copybookCancelled] ∧
      ∃ tree turns, Sample.analyzer.StopsAsking Bench.cancelledPart turns ∧
        Sample.analyzer.Recounts (.document "root" Sample.silentFirst) Sample.cancelling tree turns
          outcome ∧
        outcome.context.diagnostics.filter
            (fun diagnostic => diagnostic.code = some Diagnostic.Code.copybookCancelled) =
          ((tree.failures []).filter fun failure => failure.refusal = .cancelled).flatMap
            (Failure.diagnostics 0) := by
  have evaluated : (Sample.analyzer.run (.document "root" Sample.silentFirst)
      Sample.cancelling).map
        (fun outcome => (outcome.requests.map Request.name, outcome.context.definedNames .dataItem,
          outcome.context.diagnostics.map (fun diagnostic => diagnostic.code))) =
      some ([Sample.silent, Sample.inner], ["ITEM-B".toList],
        [some Diagnostic.Code.copybookCancelled, some Diagnostic.Code.copybookCancelled]) := by
    decide +kernel
  obtain ⟨outcome, ran, same⟩ := Option.map_eq_some_iff.mp evaluated
  obtain ⟨tree, turns, recounts, stops, _, _, reported⟩ := cancellation_keeps_answers _ _
    Bench.deliveryLimit Bench.cancelledPart _ (Bench.honours_withMemory _ Sample.stock) ran
  exact ⟨outcome, ran, congrArg Prod.fst same, congrArg (fun found => found.2.1) same,
    congrArg (fun found => found.2.2) same, tree, turns, stops, recounts,
    reported (Reading.standard_reserves _ _ _ (by decide))⟩

end Sample

end CobolAnalysis
