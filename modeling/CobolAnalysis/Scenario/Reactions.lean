/-
Observers that follow a list of reactions.

Such an observer has a label. It notes every event that reaches it and then
tries its reactions in order; one applies to the events of one name, or to all,
and only so many times for each registration of the observer. A panic keeps the
later reactions from being tried. Registrations made under a label are held
until they are dropped; no two are held under one label.
-/

import CobolAnalysis.Bus.Dispatch
import CobolAnalysis.Provider.Memory
import CobolAnalysis.Table

namespace CobolAnalysis.Scenario

/-- The deeds of a reaction that involve no further observer. -/
inductive Act where
  | publish (event : Event)
  | panic
  /-- Gives up the registration held under the label, and the label. -/
  | drop (label : String)
  /-- Ends the registration held under the label, which stays in use. -/
  | unsubscribe (label : String)
  | cancel

/-- To which events a reaction applies, and how many times. -/
structure Occasion where
  name : Option (List Char)
  times : Nat

inductive Reactions where
  | none
  | act (occasion : Occasion) (act : Act) (rest : Reactions)
  /-- Registers a further observer, unless the label is in use. -/
  | recruit (occasion : Occasion) (label : String) (kind : EventKind) (reactions : Reactions)
      (rest : Reactions)

/-- What the observers of one session share. -/
structure Cast where
  /-- Registrations by label. -/
  held : Table String Nat
  noted : List (String × Event)
  applied : Table (Nat × Nat) Nat
  providers : Nat → Provider.Memory
  cancelled : Bool

namespace Cast

def empty : Cast := ⟨.empty, [], .empty, fun _ => .empty, false⟩

def note (cast : Cast) (label : String) (event : Event) : Cast :=
  { cast with noted := cast.noted ++ [(label, event)] }

def hold (cast : Cast) (label : String) (id : Nat) : Cast :=
  { cast with held := cast.held.insert label id }

def release (cast : Cast) (label : String) : Cast :=
  { cast with held := cast.held.erase label }

/-- Whether the reaction with the given place in its registration's list applies. -/
def permits (cast : Cast) (id place : Nat) (occasion : Occasion) (event : Event) : Bool :=
  occasion.name.all (· == event.name.text) &&
    (cast.applied.get? (id, place)).getD 0 < occasion.times

def apply (cast : Cast) (id place : Nat) : Cast :=
  { cast with applied := cast.applied.alter (id, place) fun count => count.getD 0 + 1 }

def providerPart (number : Nat) : Part Cast Provider.Memory :=
  (Part.atPoint number).within
    { get := providers
      set := fun value cast => { cast with providers := value }
      get_set := fun _ _ => rfl
      set_get := fun _ => rfl
      set_set := fun _ _ _ => rfl }

end Cast

namespace Act

/-- What follows if a registration is held under the label. -/
def withHeld (label : String) (next : Nat → Procedure Cast) : Procedure Cast :=
  .read fun cast => ((cast.held.get? label).map next).getD .done

def procedure : Act → Procedure Cast
  | publish event => .publish event .done
  | panic => .panic
  | drop label => withHeld label fun id => .unsubscribe id fun _ =>
      .modify (fun cast => cast.release label) .done
  | unsubscribe label => withHeld label fun id => .unsubscribe id fun _ => .done
  | cancel => .modify (fun cast => { cast with cancelled := true }) .done

end Act

namespace Reactions

/-- The procedure of the reactions from `place` on, in registration `id`. -/
def procedure (id : Nat) (event : Event) : Nat → Reactions → Procedure Cast
  | _, none => .done
  | place, act occasion deed rest =>
      .read fun cast =>
        if cast.permits id place occasion event then
          .write (cast.apply id place)
            (deed.procedure.andThen (procedure id event (place + 1) rest))
        else procedure id event (place + 1) rest
  | place, recruit occasion label kind reactions rest =>
      .read fun cast =>
        if cast.permits id place occasion event then
          .write (cast.apply id place)
            (if cast.held.contains label then procedure id event (place + 1) rest
              else
                .subscribe kind
                  (fun newId newEvent =>
                    .modify (fun cast => cast.note label newEvent)
                      (procedure newId newEvent 0 reactions))
                  fun newId =>
                    .modify (fun cast => cast.hold label newId)
                      (procedure id event (place + 1) rest))
        else procedure id event (place + 1) rest

def observer (label : String) (reactions : Reactions) : Observer Cast := fun id event =>
  .modify (fun cast => cast.note label event) (reactions.procedure id event 0)

end Reactions

end CobolAnalysis.Scenario
