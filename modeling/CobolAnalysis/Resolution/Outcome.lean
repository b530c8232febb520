/-
What can become of a request for a copybook.

A wait looks again and again, first for the answer, then whether it was
cancelled, and last for its deadline. If nothing arrives while it lasts, the
first look that finds any of these decides, and only an answer counts more than
a cancellation.
-/

import CobolAnalysis.Bus.Event

namespace CobolAnalysis

inductive Resolution where
  | resolved (content : List Char) (uri : Option String)
  | notFound
  | timedOut
  | cancelled
  deriving DecidableEq

namespace Resolution

/-- Content counts only if the answer also says that the copybook was found. -/
def ofResult (result : FetchResult) : Resolution :=
  match result.content with
  | some content => if result.found then .resolved content result.uri else .notFound
  | none => .notFound

/-- Without an answer, a cancelled wait ends at once and any other at its deadline. -/
def ofAnswer (answer : Option FetchResult) (wasCancelled : Bool) : Resolution :=
  match answer with
  | some result => ofResult result
  | none => if wasCancelled then .cancelled else .timedOut

end Resolution

/-! ### Waiting -/

structure Glance where
  answer : Option FetchResult
  cancelled : Bool
  expired : Bool

def Glance.final (glance : Glance) : Bool := glance.cancelled || glance.expired

namespace Resolution

/-- None if the wait goes on after the last look. -/
def ofGlances : List Glance → Option Resolution
  | [] => none
  | glance :: later =>
      match glance.answer with
      | some result => some (.ofResult result)
      | none =>
          if glance.cancelled then some .cancelled
          else if glance.expired then some .timedOut
          else ofGlances later

theorem ofGlances_steady {answer : Option FetchResult} {glances : List Glance}
    (steady : ∀ glance ∈ glances, glance.answer = answer) :
    ofGlances glances =
      (glances.find? fun glance => answer.isSome || glance.final).map fun last =>
        .ofAnswer answer last.cancelled := by
  induction glances with
  | nil => rfl
  | cons glance later ih =>
      obtain ⟨here, there⟩ := List.forall_mem_cons.mp steady
      unfold ofGlances
      rw [here, List.find?_cons, ih there]
      unfold Glance.final
      cases answer with
      | some result => rfl
      | none =>
          cases cancelled : glance.cancelled with
          | true => simp [ofAnswer, cancelled]
          | false =>
              cases expired : glance.expired with
              | true => simp [ofAnswer, cancelled]
              | false => simp

end Resolution

end CobolAnalysis
