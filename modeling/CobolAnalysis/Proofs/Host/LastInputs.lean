/-
A host is a function of its last inputs.

Whatever has been done to a host and to its provider so far, what the host knows of a document
is what one analysis of its last text comes to, with the copybooks that were held when the
document was last analyzed. Every other trace of the history is lost: earlier texts, earlier
copybooks, other documents, the order in which documents were visited, and cancellations.
-/

import CobolAnalysis.Proofs.Analysis.Termination
import CobolAnalysis.Proofs.Host.Inputs
import CobolAnalysis.Proofs.Host.Readiness

namespace CobolAnalysis

open Provider (Memory)

/-! ### Courses with enough deliveries -/

/-- With enough deliveries allowed, the course has this result. -/
def ComesTo {α : Type} (course : Nat → Option α) (result : α) : Prop :=
  ∃ least, ∀ limit, least ≤ limit → course limit = some result

namespace ComesTo

variable {α β : Type}

theorem at_once (result : α) : ComesTo (fun _ => some result) result := ⟨0, fun _ _ => rfl⟩

theorem bind {course : Nat → Option α} {value : α} (first : ComesTo course value)
    (next : Nat → α → Option β) {result : β}
    (onward : ComesTo (fun limit => next limit value) result) :
    ComesTo (fun limit => (course limit).bind (next limit)) result := by
  obtain ⟨least, enough⟩ := first
  obtain ⟨more, further⟩ := onward
  refine ⟨max least more, fun limit above => ?_⟩
  simp only [enough limit (by omega)]
  exact further limit (by omega)

end ComesTo

variable {σ : Type}

/-! ### Operations on a host -/

def Venue.stocking (venue : Venue σ) (change : Memory → Memory) (bus : Bus (Board σ)) :
    Bus (Board σ) :=
  { bus with state := { bus.state with client := venue.memory.modify change bus.state.client } }

namespace Host

section Performing

variable (reading : Reading) (config : Config) (venue : Venue σ) (limit : Nat)

/-- The host after an operation; none if more deliveries are due than the limit allows. -/
def perform (host : Host (Bus (Board σ))) : Operation → Option (Host (Bus (Board σ)))
  | .set uri text => host.analyze (.onBus reading config venue.flag limit) uri text
  | .reanalyze visit => host.reanalyze (.onBus reading config venue.flag limit) visit
  | .close uri => some (host.close uri)
  | .insert name text =>
      some { host with world := venue.stocking (fun memory => memory.insert name text) host.world }
  | .erase name =>
      some { host with world := venue.stocking (fun memory => memory.erase name) host.world }
  | .cancel => some (host.cancel (Analyzer.onBus reading config venue.flag limit))

def performAll (host : Host (Bus (Board σ))) :
    List Operation → Option (Host (Bus (Board σ)))
  | [] => some host
  | operation :: rest =>
      (host.perform reading config venue limit operation).bind fun after => after.performAll rest

end Performing

theorem analyzeAll_cons {ω τ : Type} (analyzer : Analyzer ω τ) (host : Host ω) (uri : String)
    (document : OpenDocument) (rest : List (String × OpenDocument)) :
    host.analyzeAll analyzer ((uri, document) :: rest) =
      (host.analyze analyzer uri document.text).bind fun changed =>
        changed.analyzeAll analyzer rest := by
  simp only [analyzeAll]
  cases host.analyze analyzer uri document.text <;> rfl

/-! ### What the host reflects -/

section Reflection

variable (reading : Reading) (config : Config) (silent : List LogicalName) (uri : String)

def analyzed (input : Input) : OpenDocument :=
  let shelf : Shelf := ⟨reading, config, ⟨input.copybooks, silent, 0⟩⟩
  ⟨input.text, (shelf.document uri input.text).context⟩

/-- The documents of the host are those of the inputs, each as an analysis with its own copybooks
shows it, and the bus is ready for the next analysis. -/
structure Reflects (venue : Venue σ) (inputs : Inputs) (host : Host (Bus (Board σ))) : Prop where
  keys : host.documents.keys = inputs.documents.keys
  documents : ∀ uri, host.documents.get? uri =
    (inputs.documents.get? uri).map (analyzed reading config silent uri)
  ready : venue.Ready silent host.world
  copybooks : (venue.stockOn host.world).copybooks = inputs.copybooks
  silent : (venue.stockOn host.world).silent = silent

end Reflection

variable {reading : Reading} {config : Config} {silent : List LogicalName} {venue : Venue σ}
variable {inputs : Inputs} {host : Host (Bus (Board σ))}

theorem analyzed_eq {stock : Memory} {input : Input} (unheard : stock.silent = silent)
    (copybooks : ∀ name, stock.copybooks.get? name = input.copybooks.get? name) (uri : String) :
    analyzed reading config silent uri input =
      ⟨input.text, ((Shelf.mk reading config stock).document uri input.text).context⟩ := by
  let shelf : Shelf := ⟨reading, config, stock⟩
  let fresh : Memory := ⟨input.copybooks, silent, 0⟩
  have same : ((shelf.stocked fresh).document uri input.text).context =
      (shelf.document uri input.text).context :=
    Shelf.document_stocked unheard.symm (fun name => (copybooks name).symm) uri input.text
  exact congrArg (OpenDocument.mk input.text) same

theorem Reflects.documents_eq (reflects : host.Reflects reading config silent venue inputs)
    {other : Host (Bus (Board σ))} {others : Inputs}
    (another : other.Reflects reading config silent venue others)
    (keys : inputs.documents.keys = others.documents.keys)
    (same : ∀ uri, (inputs.documents.get? uri).map (analyzed reading config silent uri) =
      (others.documents.get? uri).map (analyzed reading config silent uri)) :
    host.documents = other.documents := by
  refine Table.eq_of_get? ((reflects.keys.trans keys).trans another.keys.symm) fun uri => ?_
  rw [reflects.documents, another.documents, same]

namespace Reflects

variable (separate : venue.Separate) (reflects : host.Reflects reading config silent venue inputs)

include separate reflects

theorem analyze (uri : String) (text : List Char) :
    ∃ after, ComesTo (fun limit => host.analyze (.onBus reading config venue.flag limit) uri text)
        after ∧
      after.Reflects reading config silent venue (inputs.set uri text) := by
  obtain ⟨least, rest, comes, ready, stock⟩ :=
    reflects.ready.analyzes separate reading config reflects.silent uri text
  let shelf : Shelf := ⟨reading, config, venue.stockOn host.world⟩
  let document : OpenDocument := ⟨text, (shelf.document uri text).context⟩
  refine ⟨⟨host.documents.insert uri document, rest⟩, ⟨least, fun limit above => ?_⟩, ?_⟩
  · exact congrArg (Option.map _) (comes limit above)
  · refine ⟨?_, fun other => ?_, ready, ?_, ?_⟩
    · change (host.documents.alter uri _).keys = (inputs.documents.alter uri _).keys
      rw [Table.keys_alter, Table.keys_alter, reflects.keys]
    · change (host.documents.insert uri document).get? other =
        ((inputs.documents.insert uri ⟨text, inputs.copybooks⟩).get? other).map _
      rw [Table.get?_insert, Table.get?_insert]
      by_cases same : other = uri
      · rw [if_pos same, if_pos same, same]
        have copybooks : ∀ name, (venue.stockOn host.world).copybooks.get? name =
            (Input.mk text inputs.copybooks).copybooks.get? name := by
          intro name
          rw [reflects.copybooks]
        exact congrArg some (analyzed_eq reflects.silent copybooks uri).symm
      · rw [if_neg same, if_neg same]
        exact reflects.documents other
    · rw [stock]
      exact reflects.copybooks
    · rw [stock]
      exact reflects.silent

theorem analyzeAll (documents : List (String × OpenDocument)) :
    ∃ after, ComesTo (fun limit =>
        host.analyzeAll (.onBus reading config venue.flag limit) documents) after ∧
      after.Reflects reading config silent venue ((documents.map fun entry =>
        (entry.1, entry.2.text)).foldl (fun inputs entry => inputs.set entry.1 entry.2) inputs) := by
  induction documents generalizing host inputs with
  | nil => exact ⟨host, .at_once host, reflects⟩
  | cons entry rest ih =>
      obtain ⟨uri, document⟩ := entry
      obtain ⟨between, comes, onward⟩ := reflects.analyze separate uri document.text
      obtain ⟨after, further, last⟩ := ih onward
      refine ⟨after, ?_, last⟩
      simp only [analyzeAll_cons]
      exact comes.bind _ further

omit separate in
theorem texts :
    host.documents.entries.map (fun entry => (entry.1, entry.2.text)) =
      inputs.documents.entries.map fun entry => (entry.1, entry.2.text) := by
  rw [Table.entries_eq_map (analyzed reading config silent) reflects.keys reflects.documents,
    List.map_map]
  rfl

theorem stocking (change : Memory → Memory)
    (silences : ∀ memory, (change memory).silent = memory.silent)
    {copybooks : Table LogicalName (List Char)}
    (restocks : (change (venue.stockOn host.world)).copybooks = copybooks) :
    ({ host with world := venue.stocking change host.world } :
      Host (Bus (Board σ))).Reflects reading config silent venue
        { inputs with copybooks := copybooks } := by
  have held : venue.stockOn (venue.stocking change host.world) =
      change (venue.stockOn host.world) := venue.memory.get_set _ _
  refine ⟨reflects.keys, reflects.documents, ?_, ?_, ?_⟩
  · have ready := reflects.ready.changed separate (change (venue.stockOn host.world))
      (venue.flag.get host.world.state.client)
    rw [venue.flag.set_get] at ready
    exact ready
  · rw [held]
    exact restocks
  · rw [held, silences]
    exact reflects.silent

theorem cancel (limit : Nat) :
    (host.cancel (Analyzer.onBus reading config venue.flag limit)).Reflects reading config silent
      venue inputs := by
  have held : venue.stockOn
      (host.cancel (Analyzer.onBus reading config venue.flag limit)).world =
        venue.stockOn host.world := separate.memory_get_flag true host.world.state.client
  refine ⟨reflects.keys, reflects.documents, ?_, ?_, ?_⟩
  · have ready := reflects.ready.changed separate (venue.stockOn host.world) true
    unfold Venue.stockOn at ready
    rw [← separate.memory_get_flag true, venue.memory.set_get] at ready
    exact ready
  · rw [held]
    exact reflects.copybooks
  · rw [held]
    exact reflects.silent

/-- One operation on the host is one operation on its inputs. -/
theorem perform (operation : Operation) :
    ∃ after, ComesTo (fun limit => host.perform reading config venue limit operation) after ∧
      after.Reflects reading config silent venue (inputs.after operation) := by
  cases operation with
  | set uri text => exact reflects.analyze separate uri text
  | reanalyze visit =>
      obtain ⟨after, comes, last⟩ :=
        reflects.analyzeAll separate (visit.arrange host.documents.entries)
      refine ⟨after, comes, ?_⟩
      have complete := (visit.complete host.documents.entries).map fun entry =>
        (entry.1, entry.2.text)
      rw [reflects.texts] at complete
      rwa [inputs.sets_eq_after complete visit] at last
  | close uri =>
      refine ⟨host.close uri, .at_once _, ?_, fun other => ?_, reflects.ready,
        reflects.copybooks, reflects.silent⟩
      · change (host.documents.erase uri).keys = (inputs.documents.erase uri).keys
        rw [Table.keys_erase, Table.keys_erase, reflects.keys]
      · change (host.documents.erase uri).get? other =
          ((inputs.documents.erase uri).get? other).map _
        rw [Table.get?_erase, Table.get?_erase]
        by_cases same : other = uri
        · rw [if_pos same, if_pos same]
          rfl
        · rw [if_neg same, if_neg same]
          exact reflects.documents other
  | insert name text =>
      refine ⟨_, .at_once _, reflects.stocking separate (fun memory => memory.insert name text)
        (fun _ => rfl) ?_⟩
      exact congrArg (fun table => Table.insert table name text) reflects.copybooks
  | erase name =>
      refine ⟨_, .at_once _, reflects.stocking separate (fun memory => memory.erase name)
        (fun _ => rfl) ?_⟩
      exact congrArg (fun table => Table.erase table name) reflects.copybooks
  | cancel =>
      refine ⟨_, ⟨0, fun limit _ => rfl⟩, reflects.cancel separate 0⟩

theorem performAll (operations : List Operation) :
    ∃ after, ComesTo (fun limit => host.performAll reading config venue limit operations) after ∧
      after.Reflects reading config silent venue (inputs.afterAll operations) := by
  induction operations generalizing host inputs with
  | nil => exact ⟨host, .at_once host, reflects⟩
  | cons operation rest ih =>
      obtain ⟨between, comes, onward⟩ := reflects.perform separate operation
      obtain ⟨after, further, last⟩ := ih onward
      exact ⟨after, comes.bind _ further, last⟩

end Reflects

end Host

/-! ### What is left of a history -/

/-- What every uncancelled analysis of the text comes to, wherever a provider of these copybooks
is attached. -/
def AnalyzedAs (reading : Reading) (config : Config) (silent : List LogicalName) (uri : String)
    (text : List Char) (copybooks : Table LogicalName (List Char)) (context : Context) : Prop :=
  ∀ {σ : Type} (venue : Venue σ) (stock : Memory) (bus : Bus (Board σ)),
    stock.copybooks = copybooks → stock.silent = silent → venue.Attached stock [] bus →
      ∃ outcome, ComesTo (fun limit =>
        (Analyzer.onBus reading config venue.flag limit).document uri text bus) outcome ∧
          outcome.context = context

theorem Host.analyzedAs_analyzed (reading : Reading) (config : Config) (silent : List LogicalName)
    (uri : String) (input : Input) :
    AnalyzedAs reading config silent uri input.text input.copybooks
      (Host.analyzed reading config silent uri input).context := by
  rintro σ venue stock bus copybooks unheard attached
  let shelf : Shelf := ⟨reading, config, stock⟩
  obtain ⟨least, rest, comes, _⟩ := shelf.document_mirrors attached uri input.text
  refine ⟨_, ⟨least, comes⟩, ?_⟩
  rw [Host.analyzed_eq unheard (fun name => by rw [copybooks]) uri]

/-- What a host is after a history of operations that it started in a world without documents:
what the last inputs make of it. -/
structure Host.KnowsLastInputs (reading : Reading) (config : Config) (silent : List LogicalName)
    (venue : Venue σ) (world : Bus (Board σ)) (operations : List Operation)
    (host : Host (Bus (Board σ))) : Prop where
  isOpen : ∀ uri, host.isOpen uri = true ↔ ∃ text, LastSet operations uri text
  analyzed : ∀ uri, host.isOpen uri = true →
    ∃ copybooks, LastAnalyzed (venue.stockOn world).copybooks operations uri copybooks
  stored : ∀ uri text copybooks, LastSet operations uri text →
    LastAnalyzed (venue.stockOn world).copybooks operations uri copybooks →
      ∃ context, host.documents.get? uri = some ⟨text, context⟩ ∧
        AnalyzedAs reading config silent uri text copybooks context
  /-- An operation on one document leaves all others as they are. -/
  apart : ∀ operation, ∃ after,
    ComesTo (fun limit => host.perform reading config venue limit operation) after ∧
      ∀ uri, ¬operation.Concerns uri → after.documents.get? uri = host.documents.get? uri
  anyOrder : ∃ documents, ∀ visit, ∃ after,
    ComesTo (fun limit => host.perform reading config venue limit (.reanalyze visit)) after ∧
      after.documents = documents
  /-- Nothing changes if the copybooks are those of the last analyses. -/
  upToDate : (∀ uri copybooks, host.isOpen uri = true →
      LastAnalyzed (venue.stockOn world).copybooks operations uri copybooks →
        ∀ name, copybooks.get? name =
          (copybooksAfter (venue.stockOn world).copybooks operations).get? name) →
    ∀ visit, ∃ after,
      ComesTo (fun limit => host.perform reading config venue limit (.reanalyze visit)) after ∧
        after.documents = host.documents
  /-- A cancellation between the operations makes no difference. -/
  uncancelled : ∃ other,
    ComesTo (fun limit => (Host.ofWorld world).performAll reading config venue limit
      (operations.filter fun operation => !operation.isCancel)) other ∧
        other.documents = host.documents

theorem Inputs.afterAll_uncancelled (inputs : Inputs) (operations : List Operation) :
    inputs.afterAll (operations.filter fun operation => !operation.isCancel) =
      inputs.afterAll operations := by
  induction operations generalizing inputs with
  | nil => rfl
  | cons operation rest ih => cases operation <;> exact ih _

theorem Inputs.get?_after_of_not_concerns {operation : Operation} {uri : String}
    (unconcerned : ¬operation.Concerns uri) (inputs : Inputs) :
    (inputs.after operation).documents.get? uri = inputs.documents.get? uri := by
  cases operation with
  | set other text =>
      rw [get?_after_set]
      exact if_neg (Ne.symm unconcerned)
  | reanalyze visit => exact absurd trivial unconcerned
  | close other =>
      rw [get?_after_close]
      exact if_neg (Ne.symm unconcerned)
  | insert name text => rfl
  | erase name => rfl
  | cancel => rfl

namespace Host.Reflects

variable {reading : Reading} {config : Config} {silent : List LogicalName} {venue : Venue σ}
variable {inputs : Inputs} {host : Host (Bus (Board σ))}

theorem isOpen_iff (reflects : host.Reflects reading config silent venue inputs) (uri : String) :
    host.isOpen uri = true ↔ ∃ input, inputs.documents.get? uri = some input := by
  change (host.documents.get? uri).isSome = true ↔ _
  rw [reflects.documents, Option.isSome_map, Option.isSome_iff_exists]

/-- Analyzing all documents again changes nothing where the copybooks are still the same. -/
theorem upToDate (reflects : host.Reflects reading config silent venue inputs)
    (same : ∀ uri input, inputs.documents.get? uri = some input →
      ∀ name, input.copybooks.get? name = inputs.copybooks.get? name)
    {visit : Visit (String × OpenDocument)} {after : Host (Bus (Board σ))}
    (again : after.Reflects reading config silent venue (inputs.after (.reanalyze visit))) :
    after.documents = host.documents := by
  refine again.documents_eq reflects (Table.keys_mapValues _ _) fun uri => ?_
  rw [Inputs.get?_after_reanalyze, Option.map_map]
  cases held : inputs.documents.get? uri with
  | none => rfl
  | some input =>
      let stock : Memory := ⟨inputs.copybooks, silent, 0⟩
      have unchanged : analyzed reading config silent uri input =
          ⟨input.text, ((Shelf.mk reading config stock).document uri input.text).context⟩ :=
        analyzed_eq (rfl : stock.silent = silent) (fun name => (same uri input held name).symm)
          uri
      exact congrArg some unchanged.symm

end Host.Reflects

/-- After any operations on a host and on its provider, what the host knows is what its last
inputs make of it. -/
theorem host_knows_last_inputs (reading : Reading) (config : Config) {silent : List LogicalName}
    {venue : Venue σ} (separate : venue.Separate) {world : Bus (Board σ)}
    (ready : venue.Ready silent world) (unheard : (venue.stockOn world).silent = silent)
    (operations : List Operation) :
    ∃ host, ComesTo (fun limit =>
        (Host.ofWorld world).performAll reading config venue limit operations) host ∧
      host.KnowsLastInputs reading config silent venue world operations := by
  let first := Inputs.start (venue.stockOn world).copybooks
  have start : (Host.ofWorld world).Reflects reading config silent venue first :=
    ⟨rfl, fun _ => rfl, ready, rfl, unheard⟩
  obtain ⟨host, comes, reflects⟩ := start.performAll separate operations
  have held := Inputs.documents_afterAll (venue.stockOn world).copybooks operations
  have stock := first.copybooks_afterAll operations
  refine ⟨host, comes, ?_, ?_, ?_, ?_, ?_, ?_, ?_⟩
  · intro uri
    rw [reflects.isOpen_iff]
    constructor
    · rintro ⟨input, found⟩
      exact ⟨input.text, ((held uri input).mp found).1⟩
    · rintro ⟨text, lastSet⟩
      obtain ⟨input, found, _⟩ := Option.map_eq_some_iff.mp
        ((Inputs.text_afterAll (venue.stockOn world).copybooks operations uri text).mpr lastSet)
      exact ⟨input, found⟩
  · intro uri opened
    obtain ⟨input, found⟩ := (reflects.isOpen_iff uri).mp opened
    exact ⟨input.copybooks, ((held uri input).mp found).2⟩
  · intro uri text copybooks lastSet lastAnalyzed
    have found := (held uri ⟨text, copybooks⟩).mpr ⟨lastSet, lastAnalyzed⟩
    refine ⟨_, ?_, Host.analyzedAs_analyzed reading config silent uri ⟨text, copybooks⟩⟩
    rw [reflects.documents]
    exact congrArg (Option.map _) found
  · intro operation
    obtain ⟨after, performed, onward⟩ := reflects.perform separate operation
    refine ⟨after, performed, fun uri unconcerned => ?_⟩
    rw [onward.documents, reflects.documents,
      Inputs.get?_after_of_not_concerns unconcerned]
  · obtain ⟨sample, _, expected⟩ := reflects.perform separate (.reanalyze .asHeld)
    refine ⟨sample.documents, fun visit => ?_⟩
    obtain ⟨after, performed, onward⟩ := reflects.perform separate (.reanalyze visit)
    exact ⟨after, performed, onward.documents_eq expected rfl fun _ => rfl⟩
  · intro current visit
    obtain ⟨after, performed, onward⟩ := reflects.perform separate (.reanalyze visit)
    refine ⟨after, performed, reflects.upToDate (fun uri input found name => ?_) onward⟩
    rw [stock]
    exact current uri input.copybooks ((reflects.isOpen_iff uri).mpr ⟨input, found⟩)
      ((held uri input).mp found).2 name
  · obtain ⟨other, performed, onward⟩ := start.performAll separate
      (operations.filter fun operation => !operation.isCancel)
    rw [Inputs.afterAll_uncancelled] at onward
    exact ⟨other, performed, onward.documents_eq reflects rfl fun _ => rfl⟩

/-! ### Hosts on the bench -/

namespace Scenario

theorem Bench.separate (script : Script) : (venue script).Separate :=
  ⟨fun _ _ _ => rfl, fun _ _ keeps => ⟨keeps.1, rfl, keeps.2.2⟩⟩

theorem Bench.ready (stock : Memory) :
    (venue .empty).Ready stock.silent (withMemory .empty stock) :=
  ⟨still_withMemory .empty stock, fun other _ => attached_unscripted other⟩

namespace Sample

def bench : Bus (Board (Bench Memory)) := Bench.withMemory .empty { stock with silent := [] }

def history : List Operation :=
  [.set "root" text, .set "other" text, .cancel, .erase outer, .reanalyze .asHeld, .close "other"]

end Sample

end Scenario

section Sample

open Scenario

theorem sample_host_knows_last_inputs :
    ∃ host, ComesTo (fun limit => (Host.ofWorld Sample.bench).performAll
        (Sample.shelf .shared 10).reading .standard (Bench.venue .empty) limit
          Sample.history) host ∧
      host.KnowsLastInputs (Sample.shelf .shared 10).reading .standard []
        (Bench.venue .empty) Sample.bench Sample.history ∧
      host.isOpen "root" = true ∧ host.isOpen "other" = false := by
  obtain ⟨host, comes, knows⟩ := host_knows_last_inputs (Sample.shelf .shared 10).reading
    .standard (Bench.separate .empty) (Bench.ready { Sample.stock with silent := [] }) rfl
    Sample.history
  refine ⟨host, comes, knows, (knows.isOpen "root").mpr ⟨Sample.text, ?_⟩, ?_⟩
  · exact ⟨[], .set "root" Sample.text, _, rfl, rfl, by simp [Operation.Decides]⟩
  · rw [← Bool.not_eq_true, knows.isOpen]
    rintro ⟨text, lastSet⟩
    rcases (latest_append Sample.history.dropLast (.close "other")).mp lastSet with
      set | ⟨undecided, _⟩
    · cases set
    · exact undecided rfl

end Sample

end CobolAnalysis
