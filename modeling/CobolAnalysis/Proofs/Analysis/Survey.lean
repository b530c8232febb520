/-
Following COPY statements with the copybooks at hand.

A survey makes the same checks in the same order as an analysis, but looks every
name up at once instead of asking for it over a bus. On a bus with one attached
provider an analysis comes to the same inclusions, claims and requests.
-/

import CobolAnalysis.Analysis.Document
import CobolAnalysis.Proofs.Resolution.Attached

namespace CobolAnalysis

open Parse (Reference)
open Provider (Memory)

/-- What an analysis depends on when no bus is in between. -/
structure Shelf where
  reading : Reading
  config : Config
  stock : Memory

/-- What an analysis has noted, together with a state of the world. -/
def Ledger.over {ω : Type} (record : Ledger Unit) (world : ω) : Ledger ω :=
  ⟨world, record.claimed, record.requests⟩

namespace Shelf

variable (shelf : Shelf)

def settle (reference : Reference) : Settled :=
  if shelf.stock.isSilent reference.name then .refused reference (.timedOut shelf.config.timeout)
  else
    match shelf.stock.copybooks.get? reference.name with
    | some text => .resolved reference text reference.name.uri
    | none => .refused reference .notFound

def isRepeated (record : Ledger Unit) (name : LogicalName) : Bool :=
  shelf.config.dedup == .shared && record.claimed.contains name

def settleAll (chain : List LogicalName) :
    List Reference → Ledger Unit → List Settled × Ledger Unit
  | [], record => ([], record)
  | reference :: rest, record =>
      if chain.contains reference.name then
        let others := settleAll chain rest record
        (.refused reference (.circular (chain ++ [reference.name])) :: others.1, others.2)
      else if shelf.isRepeated record reference.name then
        let others := settleAll chain rest record
        (.repeated reference :: others.1, others.2)
      else
        let others := settleAll chain rest
          ((record.claim reference.name).asked ⟨chain, reference.name⟩ ())
        (shelf.settle reference :: others.1, others.2)

def graft (follow : LogicalName → List Reference → Ledger Unit → Inclusions × Ledger Unit) :
    List Settled → Ledger Unit → Inclusions × Ledger Unit
  | [], record => (.none, record)
  | .refused reference refusal :: rest, record =>
      let others := graft follow rest record
      (.refused reference refusal others.1, others.2)
  | .repeated reference :: rest, record =>
      let others := graft follow rest record
      (.repeated reference others.1, others.2)
  | .resolved reference text uri :: rest, record =>
      match shelf.reading.document uri text with
      | .error error =>
          let others := graft follow rest record
          (.refused reference (.broken error) others.1, others.2)
      | .ok document =>
          let below := follow reference.name document.references record
          let others := graft follow rest below.2
          (.included reference uri document.context below.1 others.1, others.2)

def refusalAtLimit (chain : List LogicalName) (reference : Reference) : Refusal :=
  if chain.contains reference.name then .circular (chain ++ [reference.name])
  else .tooDeep shelf.config.maxDepth

/-- The inclusions below the references found at the end of `chain`. -/
def survey : Nat → List LogicalName → List Reference → Ledger Unit → Inclusions × Ledger Unit
  | 0, chain, references, record =>
      (references.foldr
        (fun reference rest => .refused reference (shelf.refusalAtLimit chain reference) rest)
        .none, record)
  | deeper + 1, chain, references, record =>
      let settled := shelf.settleAll chain references record
      shelf.graft (fun name => survey deeper (chain ++ [name])) settled.1 settled.2

theorem settleAll_cases (chain : List LogicalName) (reference : Reference)
    (rest : List Reference) (record : Ledger Unit) :
    (reference.name ∈ chain ∧
      shelf.settleAll chain (reference :: rest) record =
        (.refused reference (.circular (chain ++ [reference.name])) ::
          (shelf.settleAll chain rest record).1, (shelf.settleAll chain rest record).2)) ∨
    (reference.name ∉ chain ∧ (shelf.config.dedup = .shared ∧ reference.name ∈ record.claimed) ∧
      shelf.settleAll chain (reference :: rest) record =
        (.repeated reference :: (shelf.settleAll chain rest record).1,
          (shelf.settleAll chain rest record).2)) ∨
    (reference.name ∉ chain ∧ ¬(shelf.config.dedup = .shared ∧ reference.name ∈ record.claimed) ∧
      shelf.settleAll chain (reference :: rest) record =
        (shelf.settle reference ::
          (shelf.settleAll chain rest
            ((record.claim reference.name).asked ⟨chain, reference.name⟩ ())).1,
          (shelf.settleAll chain rest
            ((record.claim reference.name).asked ⟨chain, reference.name⟩ ())).2)) := by
  have repeats : shelf.isRepeated record reference.name ↔
      shelf.config.dedup = .shared ∧ reference.name ∈ record.claimed := by
    unfold isRepeated
    rw [Bool.and_eq_true, beq_iff_eq, List.contains_iff_mem]
  by_cases circular : reference.name ∈ chain
  · refine Or.inl ⟨circular, ?_⟩
    rw [settleAll, if_pos (List.contains_iff_mem.mpr circular)]
  · have off : ¬chain.contains reference.name := fun there =>
      circular (List.contains_iff_mem.mp there)
    by_cases again : shelf.config.dedup = .shared ∧ reference.name ∈ record.claimed
    · refine Or.inr (Or.inl ⟨circular, again, ?_⟩)
      rw [settleAll, if_neg off, if_pos (repeats.mpr again)]
    · refine Or.inr (Or.inr ⟨circular, again, ?_⟩)
      rw [settleAll, if_neg off, if_neg fun there => again (repeats.mp there)]

/-! ### The same over a bus -/

variable {σ : Type} (venue : Venue σ)

def analyzer (limit : Nat) : Analyzer (Bus (Board σ)) Task :=
  ⟨shelf.reading, shelf.config, .overBus limit venue.flag⟩

/-- On a bus with the provider, and with enough deliveries allowed, the course has the result of
its plain counterpart, and the provider has counted the requests. -/
def Mirrors {α : Type}
    (course : Nat → Ledger (Bus (Board σ)) → Option (α × Ledger (Bus (Board σ))))
    (plain : Ledger Unit → α × Ledger Unit) : Prop :=
  ∀ record bus, venue.Attached (shelf.stock.counting record.requests.length) [] bus →
    ∃ least rest, (∀ limit, least ≤ limit →
        course limit (record.over bus) = some ((plain record).1, (plain record).2.over rest)) ∧
      venue.Attached (shelf.stock.counting (plain record).2.requests.length) [] rest

variable {shelf venue}

theorem settle_ofAnswer (venue : Venue σ) (limit : Nat) (reference : Reference) :
    (shelf.analyzer venue limit).settle reference
        (.ofAnswer (shelf.stock.answer? reference.name) false) = shelf.settle reference := by
  unfold settle Memory.answer? Memory.fetch
  split
  · rfl
  · cases shelf.stock.copybooks.get? reference.name with
    | none => rfl
    | some text => rfl

/-- References before their answers are waited for, the tasks under way for them, and what they
will come to. -/
inductive Promises (shelf : Shelf) : List (Planned Task) → List Task → List Settled → Prop where
  | nil : Promises shelf [] [] []
  | refused (reference : Reference) (refusal : Refusal) {planned tasks settled}
      (rest : Promises shelf planned tasks settled) :
      Promises shelf (.refused reference refusal :: planned) tasks
        (.refused reference refusal :: settled)
  | repeated (reference : Reference) {planned tasks settled}
      (rest : Promises shelf planned tasks settled) :
      Promises shelf (.repeated reference :: planned) tasks (.repeated reference :: settled)
  | pending (reference : Reference) (task : Task) (same : task.name = reference.name)
      {planned tasks settled} (rest : Promises shelf planned tasks settled) :
      Promises shelf (.pending reference task :: planned) (task :: tasks)
        (shelf.settle reference :: settled)

theorem plan_accepted (chain : List LogicalName) (reference : Reference) (record : Ledger Unit)
    (earlier : List Task) (bus : Bus (Board σ))
    (attached : venue.Attached (shelf.stock.counting record.requests.length) earlier bus)
    (fresh : chain.contains reference.name = false)
    (unclaimed : shelf.isRepeated record reference.name = false) :
    ∃ least task asked, task.name = reference.name ∧ (∀ limit, least ≤ limit →
        (shelf.analyzer venue limit).plan chain reference (record.over bus) =
          some (.pending reference task,
            ((record.claim reference.name).asked ⟨chain, reference.name⟩ ()).over asked)) ∧
      venue.Attached (shelf.stock.counting (record.requests.length + 1)) (earlier ++ [task])
        asked := by
  obtain ⟨least, asked, started, attachedAfter⟩ := attached.start reference.name
  refine ⟨least, ⟨reference.name, bus.registry.nextId⟩, asked, rfl, ?_, attachedAfter⟩
  intro limit enough
  have unclaimedThere :
      (shelf.analyzer venue limit).isRepeated (record.over bus) reference.name = false := unclaimed
  have running : (shelf.analyzer venue limit).exchange.cancelled.get
      ((record.over bus).claim reference.name).world = false := attached.holds.2.1
  have requested : (shelf.analyzer venue limit).exchange.request reference.name
      ((record.over bus).claim reference.name).world =
        some (⟨reference.name, bus.registry.nextId⟩, asked) := started limit enough
  unfold Analyzer.plan Analyzer.ask
  rw [if_neg (by rw [fresh]; decide), if_neg (by rw [unclaimedThere]; decide),
    if_neg (by rw [running]; decide), requested]
  rfl

theorem planAll_promises (chain : List LogicalName) (references : List Reference)
    (record : Ledger Unit) (earlier : List Task) (bus : Bus (Board σ))
    (attached : venue.Attached (shelf.stock.counting record.requests.length) earlier bus) :
    ∃ least planned tasks rest, (∀ limit, least ≤ limit →
        (shelf.analyzer venue limit).planAll chain references (record.over bus) =
          some (planned, (shelf.settleAll chain references record).2.over rest)) ∧
      Promises shelf planned tasks (shelf.settleAll chain references record).1 ∧
      venue.Attached
        (shelf.stock.counting (shelf.settleAll chain references record).2.requests.length)
        (earlier ++ tasks) rest := by
  induction references generalizing record earlier bus with
  | nil =>
      refine ⟨0, [], [], bus, fun _ _ => rfl, .nil, ?_⟩
      rw [List.append_nil]
      exact attached
  | cons reference others ih =>
      unfold settleAll
      by_cases circular : chain.contains reference.name
      · obtain ⟨least, planned, tasks, rest, plannedAll, promises, attachedAfter⟩ :=
          ih record earlier bus attached
        rw [if_pos circular]
        refine ⟨least, _, tasks, rest, ?_, .refused reference _ promises, attachedAfter⟩
        intro limit enough
        unfold Analyzer.planAll Analyzer.plan
        rw [if_pos circular]
        simp only
        rw [plannedAll limit enough]
      · rw [if_neg circular]
        by_cases repeated : shelf.isRepeated record reference.name
        · obtain ⟨least, planned, tasks, rest, plannedAll, promises, attachedAfter⟩ :=
            ih record earlier bus attached
          rw [if_pos repeated]
          refine ⟨least, _, tasks, rest, ?_, .repeated reference promises, attachedAfter⟩
          intro limit enough
          have repeatedThere :
              (shelf.analyzer venue limit).isRepeated (record.over bus) reference.name = true :=
            repeated
          unfold Analyzer.planAll Analyzer.plan
          rw [if_neg circular, if_pos repeatedThere]
          simp only
          rw [plannedAll limit enough]
        · obtain ⟨first, task, asked, same, accepted, attachedBetween⟩ :=
            plan_accepted chain reference record earlier bus attached
              (Bool.eq_false_iff.mpr circular) (Bool.eq_false_iff.mpr repeated)
          have counted :
              ((record.claim reference.name).asked ⟨chain, reference.name⟩ ()).requests.length =
                record.requests.length + 1 := List.length_append
          obtain ⟨second, planned, tasks, rest, plannedAll, promises, attachedAfter⟩ :=
            ih ((record.claim reference.name).asked ⟨chain, reference.name⟩ ()) (earlier ++ [task])
              asked (counted ▸ attachedBetween)
          rw [if_neg repeated]
          refine ⟨max first second, _, task :: tasks, rest, ?_,
            .pending reference task same promises, ?_⟩
          · intro limit enough
            unfold Analyzer.planAll
            rw [accepted limit (by omega)]
            simp only
            rw [plannedAll limit (by omega)]
          · rw [List.append_assoc] at attachedAfter
            exact attachedAfter

theorem awaitAll_settled {planned : List (Planned Task)} {tasks : List Task}
    {settled : List Settled} (promises : Promises shelf planned tasks settled)
    (record : Ledger Unit) (count : Nat) (bus : Bus (Board σ))
    (attached : venue.Attached (shelf.stock.counting count) tasks bus) :
    ∃ rest, (∀ limit, (shelf.analyzer venue limit).awaitAll planned (record.over bus) =
        (settled, record.over rest)) ∧
      venue.Attached (shelf.stock.counting count) [] rest := by
  induction promises generalizing bus with
  | nil => exact ⟨bus, fun _ => rfl, attached⟩
  | refused reference refusal promised ih =>
      obtain ⟨rest, awaited, attachedAfter⟩ := ih bus attached
      refine ⟨rest, fun limit => ?_, attachedAfter⟩
      unfold Analyzer.awaitAll
      rw [awaited limit]
  | repeated reference promised ih =>
      obtain ⟨rest, awaited, attachedAfter⟩ := ih bus attached
      refine ⟨rest, fun limit => ?_, attachedAfter⟩
      unfold Analyzer.awaitAll
      rw [awaited limit]
  | @pending reference task same others tasks settled promised ih =>
      obtain ⟨answered, attachedBetween⟩ := attached.await false
      obtain ⟨rest, awaited, attachedAfter⟩ := ih (task.close bus) attachedBetween
      refine ⟨rest, fun limit => ?_, attachedAfter⟩
      have running : (shelf.analyzer venue limit).exchange.await task bus =
          task.await false bus := by
        change task.await (venue.flag.get bus.state.client) bus = _
        rw [attached.holds.2.1]
      have own : shelf.stock.answer? task.name = shelf.stock.answer? reference.name :=
        congrArg _ same
      have course : (shelf.analyzer venue limit).awaitAll (.pending reference task :: others)
          (record.over bus) =
            ((shelf.analyzer venue limit).settle reference
                ((shelf.analyzer venue limit).exchange.await task bus).1 ::
              ((shelf.analyzer venue limit).awaitAll others (record.over
                ((shelf.analyzer venue limit).exchange.await task bus).2)).1,
              ((shelf.analyzer venue limit).awaitAll others (record.over
                ((shelf.analyzer venue limit).exchange.await task bus).2)).2) := rfl
      rw [course, running, answered, awaited limit,
        ← settle_ofAnswer venue limit reference, ← own]
      rfl

theorem includeAll_mirrors
    (follow : Nat → LogicalName → List Reference → Ledger (Bus (Board σ)) →
      Option (Inclusions × Ledger (Bus (Board σ))))
    (plain : LogicalName → List Reference → Ledger Unit → Inclusions × Ledger Unit)
    (mirrored : ∀ name references,
      shelf.Mirrors venue (fun limit => follow limit name references) (plain name references))
    (settled : List Settled) :
    shelf.Mirrors venue (fun limit => Analyzer.includeAll shelf.reading (follow limit) settled)
      (shelf.graft plain settled) := by
  induction settled with
  | nil => exact fun record bus attached => ⟨0, bus, fun _ _ => rfl, attached⟩
  | cons entry others ih =>
      intro record bus attached
      cases entry with
      | refused reference refusal =>
          obtain ⟨least, rest, included, attachedAfter⟩ := ih record bus attached
          refine ⟨least, rest, fun limit enough => ?_, attachedAfter⟩
          have step := included limit enough
          simp only [Analyzer.includeAll, step, Option.map_some, graft]
      | repeated reference =>
          obtain ⟨least, rest, included, attachedAfter⟩ := ih record bus attached
          refine ⟨least, rest, fun limit enough => ?_, attachedAfter⟩
          have step := included limit enough
          simp only [Analyzer.includeAll, step, Option.map_some, graft]
      | resolved reference text uri =>
          cases read : shelf.reading.document uri text with
          | error error =>
              obtain ⟨least, rest, included, attachedAfter⟩ := ih record bus attached
              have broken : shelf.graft plain (.resolved reference text uri :: others) record =
                  (.refused reference (.broken error) (shelf.graft plain others record).1,
                    (shelf.graft plain others record).2) := by
                simp only [graft, read]
              rw [broken]
              refine ⟨least, rest, fun limit enough => ?_, attachedAfter⟩
              have step := included limit enough
              simp only [Analyzer.includeAll, read, step, Option.map_some]
          | ok document =>
              obtain ⟨first, between, followed, attachedBetween⟩ :=
                mirrored reference.name document.references record bus attached
              obtain ⟨second, rest, included, attachedAfter⟩ :=
                ih (plain reference.name document.references record).2 between attachedBetween
              have grafted : shelf.graft plain (.resolved reference text uri :: others) record =
                  (.included reference uri document.context
                      (plain reference.name document.references record).1
                      (shelf.graft plain others
                        (plain reference.name document.references record).2).1,
                    (shelf.graft plain others
                      (plain reference.name document.references record).2).2) := by
                simp only [graft, read]
              rw [grafted]
              refine ⟨max first second, rest, fun limit enough => ?_, attachedAfter⟩
              have below := followed limit (by omega)
              have step := included limit (by omega)
              simp only at below
              simp only [Analyzer.includeAll, read, below, step, Option.map_some]

theorem explore_mirrors (shelf : Shelf) (deeper : Nat) (chain : List LogicalName)
    (references : List Reference) :
    shelf.Mirrors venue
      (fun limit => (shelf.analyzer venue limit).explore deeper chain references)
      (shelf.survey deeper chain references) := by
  induction deeper generalizing chain references with
  | zero => exact fun record bus attached => ⟨0, bus, fun _ _ => rfl, attached⟩
  | succ deeper ih =>
      intro record bus attached
      -- The bus carries tasks while answers are outstanding; none is left once copybooks are read.
      obtain ⟨first, planned, tasks, asked, plannedAll, promises, attachedAsked⟩ :=
        planAll_promises chain references record [] bus attached
      rw [List.nil_append] at attachedAsked
      obtain ⟨waited, awaited, attachedWaited⟩ :=
        awaitAll_settled promises (shelf.settleAll chain references record).2 _ asked attachedAsked
      obtain ⟨second, rest, included, attachedAfter⟩ :=
        includeAll_mirrors
          (fun limit name => (shelf.analyzer venue limit).explore deeper (chain ++ [name]))
          (fun name => shelf.survey deeper (chain ++ [name]))
          (fun name references => ih (chain ++ [name]) references)
          (shelf.settleAll chain references record).1
          (shelf.settleAll chain references record).2 waited attachedWaited
      refine ⟨max first second, rest, fun limit enough => ?_, attachedAfter⟩
      simp only
      unfold Analyzer.explore
      rw [plannedAll limit (by omega)]
      simp only
      rw [awaited limit]
      exact included limit (by omega)

/-! ### Whole documents -/

def document (shelf : Shelf) (uri : String) (text : List Char) : Outcome Unit :=
  match shelf.reading.document uri text with
  | .error error => ⟨Analyzer.unreadable uri error, [], ()⟩
  | .ok document =>
      let found := shelf.survey shelf.config.maxDepth [] document.references (.start ())
      ⟨(found.1.contexts .root).foldl Context.merge document.context, found.2.requests, ()⟩

theorem document_mirrors (shelf : Shelf) {bus : Bus (Board σ)}
    (attached : venue.Attached shelf.stock [] bus) (uri : String) (text : List Char) :
    ∃ least rest, (∀ limit, least ≤ limit →
        (shelf.analyzer venue limit).document uri text bus =
          some ⟨(shelf.document uri text).context, (shelf.document uri text).requests, rest⟩) ∧
      venue.Attached (shelf.stock.counting (shelf.document uri text).requests.length) [] rest := by
  cases read : shelf.reading.document uri text with
  | error error =>
      have unread : shelf.document uri text = ⟨Analyzer.unreadable uri error, [], ()⟩ := by
        simp only [document, read]
      rw [unread]
      refine ⟨0, bus, fun limit _ => ?_, attached⟩
      have there : (shelf.analyzer venue limit).reading.document uri text = .error error := read
      simp only [Analyzer.document, there]
  | ok parsed =>
      have outcome : shelf.document uri text =
          ⟨((shelf.survey shelf.config.maxDepth [] parsed.references (.start ())).1.contexts
              .root).foldl Context.merge parsed.context,
            (shelf.survey shelf.config.maxDepth [] parsed.references (.start ())).2.requests,
            ()⟩ := by
        simp only [document, read]
      obtain ⟨least, rest, explored, attachedAfter⟩ :=
        shelf.explore_mirrors shelf.config.maxDepth [] parsed.references (.start ()) bus
          attached
      rw [outcome]
      refine ⟨least, rest, fun limit enough => ?_, attachedAfter⟩
      have there : (shelf.analyzer venue limit).reading.document uri text = .ok parsed := read
      have below : (shelf.analyzer venue limit).explore
          (shelf.analyzer venue limit).config.maxDepth [] parsed.references (.start bus) = _ :=
        explored limit enough
      simp only [Analyzer.document, there, below, Option.map_some]
      rfl

/-- Once every delivery may take up enough events, an analysis can only end with what the survey
comes to. -/
theorem document_evaluates (shelf : Shelf) {bus : Bus (Board σ)}
    (attached : venue.Attached shelf.stock [] bus) (uri : String) (text : List Char) :
    ∃ least, ∀ limit, least ≤ limit → ∀ outcome,
      (shelf.analyzer venue limit).document uri text bus = some outcome →
        outcome.context = (shelf.document uri text).context ∧
          outcome.requests = (shelf.document uri text).requests := by
  obtain ⟨least, rest, mirrors, _⟩ := shelf.document_mirrors attached uri text
  refine ⟨least, fun limit enough outcome ran => ?_⟩
  cases ran.symm.trans (mirrors limit enough)
  exact ⟨rfl, rfl⟩

/-! ### Copybooks that are asked for -/

theorem copybook_mirrors (shelf : Shelf) {bus : Bus (Board σ)}
    (attached : venue.Attached shelf.stock [] bus) (name : LogicalName) :
    let found := shelf.survey shelf.config.maxDepth [] [Analyzer.requestOf name] (.start ())
    ∃ least rest, ∀ limit, least ≤ limit →
      (shelf.analyzer venue limit).copybook name bus =
        some ⟨.mergeAll (found.1.contexts .request), found.2.requests, rest⟩ := by
  intro found
  obtain ⟨least, rest, explored, _⟩ :=
    shelf.explore_mirrors shelf.config.maxDepth [] [Analyzer.requestOf name] (.start ()) bus
      attached
  refine ⟨least, rest, fun limit enough => ?_⟩
  have below : (shelf.analyzer venue limit).explore
      (shelf.analyzer venue limit).config.maxDepth [] [Analyzer.requestOf name] (.start bus) = _ :=
    explored limit enough
  unfold Analyzer.copybook
  rw [below]
  rfl

end Shelf

end CobolAnalysis
