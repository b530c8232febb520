/-
A scripted observer of requests, and the bench on which analyses are tried out.

The script notes every request. It may then cancel the analysis that is running,
or panic, or publish prepared answers, whichever it is told to do for the name;
cancelling comes first and a panic excludes the answers. The names to cancel or to
panic on are plain texts, of which only those in normal form are ever met. A bench
has a script, a record of the answers that were published, and a provider.
-/

import CobolAnalysis.Analysis.Document
import CobolAnalysis.Provider.Memory
import CobolAnalysis.Provider.Workspace

namespace CobolAnalysis.Scenario

structure Script where
  cancelOn : List (List Char)
  panicOn : List (List Char)
  answers : Table LogicalName (List Event)
  /-- Names requested since the notes were last cleared. -/
  noted : List LogicalName
  cancelled : Bool

namespace Script

def empty : Script := ⟨[], [], .empty, [], false⟩

def note (script : Script) (name : LogicalName) : Script :=
  { script with noted := script.noted ++ [name] }

/-- The notes taken on a request, and the cancellation it brings about. -/
def onRequest (name : LogicalName) (script : Script) : Script :=
  let noted := script.note name
  if script.cancelOn.contains name.text then { noted with cancelled := true } else noted

def reply (name : LogicalName) (script : Script) : Procedure Script :=
  if script.panicOn.contains name.text then .panic
  else .publishAll ((script.answers.get? name).getD [])

def respond : Observer Script := fun _ event =>
  match event with
  | .fetch _ => .done
  | .scan name => .modify (onRequest name) (.read (reply name))

end Script

structure Bench (π : Type) where
  script : Script
  /-- Answers published since the record was last cleared. -/
  heard : List FetchResult
  provider : π

namespace Bench

variable {π : Type}

def scriptPart : Part (Bench π) Script where
  get := script
  set := fun value bench => { bench with script := value }
  get_set := fun _ _ => rfl
  set_get := fun _ => rfl
  set_set := fun _ _ _ => rfl

def providerPart : Part (Bench π) π where
  get := provider
  set := fun value bench => { bench with provider := value }
  get_set := fun _ _ => rfl
  set_get := fun _ => rfl
  set_set := fun _ _ _ => rfl

def cancelledPart : Part (Bench π) Bool where
  get := fun bench => bench.script.cancelled
  set := fun value bench => { bench with script := { bench.script with cancelled := value } }
  get_set := fun _ _ => rfl
  set_get := fun _ => rfl
  set_set := fun _ _ _ => rfl

/-- Records every answer. -/
def listen : Observer (Bench π) := fun _ event =>
  match event with
  | .scan _ => .done
  | .fetch result => .modify (fun bench => { bench with heard := bench.heard ++ [result] }) .done

def cleared (bench : Bench π) : Bench π :=
  { bench with script := { bench.script with noted := [] }, heard := [] }

/-! ### Buses -/

abbrev World (π : Type) := Bus (Board (Bench π))

def onBoard (observer : Observer (Bench π)) : Observer (Board (Bench π)) :=
  observer.within Board.clientPart

/-- A script and a provider, the script listening first. -/
def withMemory (script : Script) (memory : Provider.Memory) : World Provider.Memory :=
  let silent := Bus.ofState (Board.ofClient ⟨script, [], memory⟩)
  let scripted := silent.subscribe .scanRequest (onBoard (Script.respond.within scriptPart))
  scripted.subscribe .scanRequest (onBoard (Provider.Memory.respond.within providerPart))

/-- A script, a record of answers, and a provider, listening in this order. -/
def withWorkspace (script : Script) (workspace : Provider.Workspace) :
    World Provider.Workspace :=
  let silent := Bus.ofState (Board.ofClient ⟨script, [], workspace⟩)
  let scripted := silent.subscribe .scanRequest (onBoard (Script.respond.within scriptPart))
  let recorded := scripted.subscribe .fetchResult (onBoard listen)
  recorded.subscribe .scanRequest (onBoard (Provider.Workspace.respond.within providerPart))

/-- The number of events after which a publication counts as endless. -/
def deliveryLimit : Nat := 1000000

def exchange : Exchange (World π) Task := .overBus deliveryLimit cancelledPart

def bench (world : World π) : Bench π := world.state.client

def modify (change : Bench π → Bench π) (world : World π) : World π :=
  { world with state := { world.state with client := change world.state.client } }

def subscribers (world : World π) : Nat × Nat :=
  (world.count .scanRequest, world.count .fetchResult)

def publish (world : World π) (event : Event) : Option (World π) :=
  Bus.publish deliveryLimit world event

/-! ### Analyses -/

def analyzer (reading : Reading) (config : Config) : Analyzer (World π) Task :=
  ⟨reading, config, exchange⟩

inductive Subject where
  | copybook (name : LogicalName)
  | document (uri : String) (text : List Char)

/-- One analysis with notes of its own, cancelled beforehand if it is told so. -/
def analyze (reading : Reading) (config : Config) (subject : Subject) (cancelledBefore : Bool)
    (world : World π) : Option (Outcome (World π)) :=
  let ready := cancelledPart.modify (fun _ => cancelledBefore)
  let fresh := modify (fun bench => ready bench.cleared) world
  match subject with
  | .copybook name => (analyzer reading config).copybook name fresh
  | .document uri text => (analyzer reading config).document uri text fresh

end Bench

end CobolAnalysis.Scenario
