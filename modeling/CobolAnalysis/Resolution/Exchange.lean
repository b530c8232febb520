/-
How an analysis gets at copybooks.

An exchange is a state in which a copybook can be asked for, giving a ticket,
and in which a ticket can be traded for what became of the request. The state
also tells whether the analysis was cancelled in the meantime. Asking has no
result when the answering side never comes to rest.
-/

import CobolAnalysis.Resolution.Task

namespace CobolAnalysis

structure Exchange (ω τ : Type) where
  /-- Whether the analysis that is running was cancelled. -/
  cancelled : Part ω Bool
  request : LogicalName → ω → Option (τ × ω)
  await : τ → ω → Resolution × ω

namespace Exchange

def busFlag {σ : Type} (flag : Part σ Bool) : Part (Bus (Board σ)) Bool where
  get := fun bus => flag.get bus.state.client
  set := fun value bus =>
    { bus with state := { bus.state with client := flag.set value bus.state.client } }
  get_set := fun value bus => flag.get_set value bus.state.client
  set_get := by
    intro bus
    simp only [flag.set_get]
  set_set := by
    intro first second bus
    simp only [flag.set_set]

/-- Asks over a bus; every delivery may take up to `limit` events. -/
def overBus {σ : Type} (limit : Nat) (flag : Part σ Bool) : Exchange (Bus (Board σ)) Task where
  cancelled := busFlag flag
  request := Task.start limit
  await := fun task bus => task.await ((busFlag flag).get bus) bus

end Exchange

end CobolAnalysis
