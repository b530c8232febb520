/-
A bus on which one analysis can follow another.

The provider's copybooks may change between two analyses, and a cancellation may be left over
from the one before. A bus is ready if it serves an analysis whatever the provider holds, once
the analysis has started uncancelled. Every analysis leaves a ready bus as ready as it was, with
the same copybooks held.
-/

import CobolAnalysis.Proofs.Analysis.BusAfterwards
import CobolAnalysis.Proofs.Analysis.Contributions
import CobolAnalysis.Proofs.Analysis.Correspondence

namespace CobolAnalysis

open Provider (Memory)

variable {σ : Type}

/-! ### What an analysis leaves on the bus -/

theorem Analyzer.registrations_document {reading : Reading} {config : Config} {limit : Nat}
    {flag : Part σ Bool} {uri : String} {text : List Char} {world : Bus (Board σ)}
    {outcome : Outcome (Bus (Board σ))}
    (ran : (Analyzer.mk reading config (.overBus limit flag)).document uri text world =
      some outcome)
    (still : world.Still) :
    outcome.world.registry.registrations = world.registry.registrations ∧
      outcome.world.Still := by
  let subject : Scenario.Bench.Subject := .document uri text
  have asRun : (Analyzer.mk reading config (.overBus limit flag)).run subject world =
      some outcome := ran
  obtain ⟨tree, turns, recounts, _⟩ := Analyzer.run_recounts asRun
  obtain ⟨ledger, passes, ends⟩ := recounts.passes_to asRun
  rw [← ends]
  exact ⟨recounts.tells.returns passes (passes.quiet still),
    passes.kept (keeps_still limit flag) still⟩

/-! ### Analyses with other copybooks -/

theorem Shelf.document_stocked {shelf : Shelf} {other : Memory}
    (silent : other.silent = shelf.stock.silent)
    (copybooks : ∀ name, other.copybooks.get? name = shelf.stock.copybooks.get? name)
    (uri : String) (text : List Char) :
    ((shelf.stocked other).document uri text).context = (shelf.document uri text).context := by
  have congruence : Context.Congruence Eq := by
    refine ⟨fun _ => rfl, ?_, ?_⟩
    · rintro left right _ _ rfl rfl
      rfl
    · rintro left _ rfl kind written location
      rfl
  have alike : ∀ uri text, ReadsLike Eq (shelf.reading.document uri text)
      (shelf.reading.document uri text) := by
    intro uri text
    cases shelf.reading.document uri text with
    | error error => exact .refused error
    | ok document => exact .read rfl document.references
  have corresponds : (shelf.stocked other).Corresponds Eq shelf := by
    refine ⟨rfl, fun name => ?_, fun name => ?_⟩
    · change other.silent.contains name = shelf.stock.silent.contains name
      rw [silent]
    · change Option.Rel _ (other.copybooks.get? name) _
      rw [copybooks name]
      cases shelf.stock.copybooks.get? name with
      | none => exact .none
      | some held => exact .some (alike name.uri held)
  exact (corresponds.document congruence (alike uri text)).2

namespace Venue

variable (venue : Venue σ)

/-- The provider's memory, the cancellation, and what else the observers keep do not depend on one
another. -/
structure Separate : Prop where
  commute : ∀ stock value state,
    venue.memory.set stock (venue.flag.set value state) =
      venue.flag.set value (venue.memory.set stock state)
  steady : ∀ stock state, venue.steady state →
    venue.steady (venue.memory.set stock (venue.flag.set false state))

def restocked (stock : Memory) (bus : Bus (Board σ)) : Bus (Board σ) :=
  { bus with
    state := { bus.state with
      client := venue.memory.set stock (venue.flag.set false bus.state.client) } }

/-- Whatever copybooks the provider holds, an analysis that is not cancelled is served, and
everyone on the bus keeps to publishing and writing. Some names may always be kept silent. -/
structure Ready (silent : List LogicalName) (bus : Bus (Board σ)) : Prop where
  still : bus.Still
  attached : ∀ stock, stock.silent = silent → venue.Attached stock [] (venue.restocked stock bus)

def stockOn (bus : Bus (Board σ)) : Memory := venue.memory.get bus.state.client

variable {venue} {silent : List LogicalName} {bus : Bus (Board σ)}

namespace Separate

variable (separate : venue.Separate)

include separate

theorem memory_get_flag (value : Bool) (state : σ) :
    venue.memory.get (venue.flag.set value state) = venue.memory.get state := by
  have same := separate.commute (venue.memory.get state) value state
  rw [venue.memory.set_get] at same
  rw [← same, venue.memory.get_set]

theorem restocked_stockOn (bus : Bus (Board σ)) :
    venue.restocked (venue.stockOn bus) bus = (Exchange.busFlag venue.flag).set false bus := by
  unfold restocked stockOn
  rw [← separate.memory_get_flag false bus.state.client, venue.memory.set_get]
  rfl

theorem restocked_changed (stock other : Memory) (value : Bool) (bus : Bus (Board σ)) :
    venue.restocked stock { bus with state := { bus.state with
      client := venue.memory.set other (venue.flag.set value bus.state.client) } } =
        venue.restocked stock bus := by
  unfold restocked
  simp only
  rw [separate.commute other value, venue.flag.set_set, ← separate.commute other false,
    venue.memory.set_set]

end Separate

theorem Ready.changed (separate : venue.Separate) (ready : venue.Ready silent bus)
    (stock : Memory) (value : Bool) :
    venue.Ready silent { bus with state := { bus.state with
      client := venue.memory.set stock (venue.flag.set value bus.state.client) } } := by
  refine ⟨⟨ready.still.registered, ready.still.pending, fun _ none => nomatch none⟩, ?_⟩
  intro other same
  rw [separate.restocked_changed]
  exact ready.attached other same

theorem Ready.again (separate : venue.Separate) (ready : venue.Ready silent bus)
    {rest : Bus (Board σ)} {stock : Memory} (attached : venue.Attached stock [] rest)
    (same : rest.registry.registrations = bus.registry.registrations) (still : rest.Still) :
    venue.Ready silent rest := by
  have observers : ∀ kind, rest.registry.observers kind = bus.registry.observers kind := by
    intro kind
    unfold Registry.observers
    rw [same]
  refine ⟨still, fun other unheard => ?_⟩
  have before := ready.attached other unheard
  obtain ⟨first, id, last, present, bystanders⟩ := before.attended
  refine ⟨attached.idle, ⟨first, id, last, ?_, bystanders⟩, ?_, attached.unused, nofun, ?_, ?_, ?_⟩
  · exact (observers .scanRequest).trans present
  · exact (observers .fetchResult).trans before.listeners
  · exact venue.memory.get_set other _
  · exact (venue.apart other _).trans (venue.flag.get_set false _)
  · exact separate.steady other _ attached.holds.2.2

/-- Whatever was cancelled before, an analysis on a ready bus has the result that the copybooks at
hand call for, and leaves the bus ready with the same copybooks held. -/
theorem Ready.analyzes (separate : venue.Separate) (ready : venue.Ready silent bus)
    (reading : Reading) (config : Config) (unheard : (venue.stockOn bus).silent = silent)
    (uri : String) (text : List Char) :
    let shelf : Shelf := ⟨reading, config, venue.stockOn bus⟩
    ∃ least rest, (∀ limit, least ≤ limit →
        (shelf.analyzer venue limit).document uri text
            ((Exchange.busFlag venue.flag).set false bus) =
          some ⟨(shelf.document uri text).context, (shelf.document uri text).requests, rest⟩) ∧
      venue.Ready silent rest ∧
      venue.stockOn rest =
        (venue.stockOn bus).counting (shelf.document uri text).requests.length := by
  intro shelf
  have attached := ready.attached (venue.stockOn bus) unheard
  rw [separate.restocked_stockOn] at attached
  obtain ⟨least, rest, analyzed, after⟩ := shelf.document_mirrors attached uri text
  have still : ((Exchange.busFlag venue.flag).set false bus).Still :=
    ⟨ready.still.registered, ready.still.pending, fun _ none => nomatch none⟩
  obtain ⟨same, stillAfter⟩ :=
    Analyzer.registrations_document (analyzed least (Nat.le_refl least)) still
  exact ⟨least, rest, analyzed, ready.again separate after same stillAfter, after.holds.1⟩

end Venue

end CobolAnalysis
